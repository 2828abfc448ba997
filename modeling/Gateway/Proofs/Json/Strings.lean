import Gateway.Json.Printer
import Gateway.Json.Scan
import Mathlib.Tactic.SplitIfs

/-!
# Strings are read as they were written

Every character of a string is written as one part of a text, by name, by number or as it is
(`Piece.ofChar`). A reader takes the text apart into these parts (`scanPieces_escaped`) and
puts them together to the same characters (`assemble_ofChar`), up to the closing quote and no
further. So a string, be it a value or a key, comes back as itself (`scanString_escaped`,
`scanKey_escaped`).
-/

namespace Gateway.Json

/-- The part that a character is written as. -/
def Piece.ofChar (c : Char) : Piece :=
  if 32 ≤ c.toNat ∨ c ∈ ['\n', '\t', '\r', '\x08', '\x0c'] then .char c else .unit c.toNat

/-- A control is written with its number. -/
theorem toNat?_control : ∀ n < 32,
    Hex.toNat? ['0', '0', Text.hexDigit (n / 16), Text.hexDigit (n % 16)] = some n := by
  decide

theorem scanPieces_escapeChar (c : Char) (rest : List Char) :
    scanPieces (escapeChar c ++ rest) =
      (Piece.ofChar c :: (scanPieces rest).1, (scanPieces rest).2) := by
  unfold escapeChar
  split_ifs with hquote hslash hline htab hreturn hback hfeed hcontrol
  · subst hquote
    simp [scanPieces, unescape?, Piece.ofChar]
  · subst hslash
    simp [scanPieces, unescape?, Piece.ofChar]
  · subst hline
    simp [scanPieces, unescape?, Piece.ofChar]
  · subst htab
    simp [scanPieces, unescape?, Piece.ofChar]
  · subst hreturn
    simp [scanPieces, unescape?, Piece.ofChar]
  · subst hback
    simp [scanPieces, unescape?, Piece.ofChar]
  · subst hfeed
    simp [scanPieces, unescape?, Piece.ofChar]
  · have hofChar : Piece.ofChar c = .unit c.toNat := by
      rw [Piece.ofChar, if_neg]
      rintro (h | h)
      · exact absurd hcontrol (Nat.not_lt.mpr h)
      · simp [hline, htab, hreturn, hback, hfeed] at h
    simp [scanPieces, toNat?_control _ hcontrol, hofChar]
  · have hofChar : Piece.ofChar c = .char c := if_pos (.inl (Nat.not_lt.mp hcontrol))
    simp [scanPieces, hslash, hcontrol, hofChar]

theorem scanPieces_escaped (cs rest : List Char) :
    scanPieces (cs.flatMap escapeChar ++ '"' :: rest) =
      (cs.map Piece.ofChar, .closed rest) := by
  induction cs with
  | nil => simp [scanPieces]
  | cons c cs ih =>
    rw [List.flatMap_cons, List.append_assoc, scanPieces_escapeChar, ih]
    rfl

theorem assemble_cons_ofChar (e : StringEnd) (c : Char) (ps : List Piece) :
    assemble e (Piece.ofChar c :: ps) = (assemble e ps).map (c :: ·) := by
  unfold Piece.ofChar
  split
  · rfl
  next h =>
    -- a control is no half of a surrogate pair
    have hlt : c.toNat < 32 := Nat.not_le.mp fun hle => h (.inl hle)
    have hcloses : closesPair c.toNat = false := by simp [closesPair]; omega
    have hopens : opensPair c.toNat = false := by simp [opensPair]; omega
    rw [assemble.eq_def]
    simp [hcloses, hopens]

theorem assemble_ofChar (e : StringEnd) (cs : List Char) :
    assemble e (cs.map Piece.ofChar) = .ok cs := by
  induction cs with
  | nil => rfl
  | cons c cs ih =>
    rw [List.map_cons, assemble_cons_ofChar, ih]
    rfl

theorem scanString_escaped (s : String) (rest : List Char) :
    scanString (s.toList.flatMap escapeChar ++ '"' :: rest) = .ok (.string s, rest) := by
  unfold scanString
  rw [scanPieces_escaped]
  dsimp only
  rw [assemble_ofChar]
  simp

theorem scanKey_escaped (key : String) (rest : List Char) :
    scanKey (key.toList.flatMap escapeChar ++ '"' :: rest) = .ok (.ok key, rest) := by
  unfold scanKey
  rw [scanString_escaped]

end Gateway.Json
