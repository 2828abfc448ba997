import Gateway.Json.Scan
import Gateway.Proofs.Json.Numeral

/-!
# Where a token ends

A string ends at its closing quote, a word at its last letter and a numeral where neither a
digit nor what else may stand in it follows. So a token that is found in one text is found in
every text where it stands in front of what may follow a value (`Follows`): `scanString_ok`,
`scanKey_ok`, `scanWord_ok`, `scanNumeral_done`.
-/

namespace Gateway.Json

open Gateway.Decimal (isDigit)

/-- A value that has nothing inside. -/
def Outline.IsLeaf : Outline → Prop
  | .array .. => False
  | .object .. => False
  | _ => True

/-! ## Strings -/

theorem scanPieces_escape {c u : Char} (h : unescape? c = some u) (cs : List Char) :
    scanPieces ('\\' :: c :: cs) = (.char u :: (scanPieces cs).1, (scanPieces cs).2) := by
  have hunit : c ≠ 'u' := by
    rintro rfl
    simp [unescape?] at h
  rw [scanPieces, h]
  · intros
    contradiction
  · exact hunit

theorem scanPieces_plain {c : Char} (hquote : c ≠ '"') (hslash : c ≠ '\\') (cs : List Char) :
    scanPieces (c :: cs) =
      ((if c.toNat < 32 then .control c else .char c) :: (scanPieces cs).1, (scanPieces cs).2) := by
  rw [scanPieces]
  · exact hquote
  all_goals
    intros
    contradiction

theorem scanPieces_closed {cs rest : List Char} {ps : List Piece}
    (h : scanPieces cs = (ps, .closed rest)) :
    ∃ x, cs = x ++ rest ∧ ∀ next, scanPieces (x ++ next) = (ps, .closed next) := by
  induction cs using scanPieces.induct generalizing ps with
  | case1 => simp [scanPieces] at h
  | case2 rest' =>
    simp only [scanPieces, Prod.mk.injEq, StringEnd.closed.injEq] at h
    obtain ⟨rfl, rfl⟩ := h
    exact ⟨['"'], rfl, fun next => by simp [scanPieces]⟩
  | case3 => simp [scanPieces] at h
  | case4 a b c d more n hn ps' e hmore ih =>
    simp only [scanPieces, hn, hmore, Prod.mk.injEq] at h
    obtain ⟨rfl, rfl⟩ := h
    obtain ⟨x, rfl, hx⟩ := ih hmore
    exact ⟨'\\' :: 'u' :: a :: b :: c :: d :: x, rfl, fun next => by simp [scanPieces, hn, hx]⟩
  | case5 a b c d more hn =>
    simp only [scanPieces, hn] at h
    split at h <;> simp at h
  | case6 more hshort =>
    rw [scanPieces] at h
    · split at h <;> simp at h
    · exact hshort
  | case7 c more _ _ u hu ps' e hmore ih =>
    rw [scanPieces_escape hu, hmore] at h
    obtain ⟨rfl, rfl⟩ := Prod.mk.inj h
    obtain ⟨x, rfl, hx⟩ := ih hmore
    refine ⟨'\\' :: c :: x, rfl, fun next => ?_⟩
    rw [List.cons_append, List.cons_append, scanPieces_escape hu, hx]
  | case8 c more hunit hu hnone =>
    rw [scanPieces, hnone] at h
    · simp at h
    · exact hunit
    · exact hu
  | case9 c more hquote _ _ _ hescape ps' e hmore ih =>
    have hslash : c ≠ '\\' := by
      rintro rfl
      rcases more with _ | ⟨d, more⟩
      · contradiction
      · exact hescape d more rfl rfl
    rw [scanPieces_plain hquote hslash, hmore] at h
    obtain ⟨rfl, rfl⟩ := Prod.mk.inj h
    obtain ⟨x, rfl, hx⟩ := ih hmore
    refine ⟨c :: x, rfl, fun next => ?_⟩
    rw [List.cons_append, scanPieces_plain hquote hslash, hx]

/-- Only a string that is not closed tells in what way. -/
theorem assemble_closed (rest next : List Char) (ps : List Piece) :
    assemble (.closed rest) ps = assemble (.closed next) ps := by
  induction ps using assemble.induct with
  | case1 => rfl
  | case2 c ps ih => rw [assemble, assemble, ih]
  | case3 => rfl
  | case4 n ps hcloses => simp [assemble.eq_def, hcloses]
  | case5 n hcloses hopens m ps hpair ih => simp [assemble, hcloses, hopens, hpair, ih]
  | case6 n hcloses hopens m ps hpair => simp [assemble, hcloses, hopens, hpair]
  | case7 n hcloses hopens => simp [assemble, hcloses, hopens, pendingFault]
  | case8 n ps hcloses hopens hunit hnil => simp [assemble, hcloses, hopens]
  | case9 n ps hcloses hopens ih =>
    rw [assemble.eq_def, assemble.eq_def (.closed next)]
    simp [hcloses, hopens, ih]

/-- A string ends at its closing quote, whatever follows. -/
theorem scanString_ok {cs rest : List Char} {o : Outline} (h : scanString cs = .ok (o, rest)) :
    o.IsLeaf ∧ ∃ x, cs = x ++ rest ∧ ∀ next, scanString (x ++ next) = .ok (o, next) := by
  unfold scanString at h
  rcases hp : scanPieces cs with ⟨ps, e⟩
  rw [hp] at h
  cases e with
  | closed rest' =>
    obtain ⟨x, rfl, hx⟩ := scanPieces_closed hp
    rcases htext : assemble (.closed rest') ps with m | text
    all_goals
      simp only [htext, Except.ok.injEq, Prod.mk.injEq] at h
      obtain ⟨rfl, rfl⟩ := h
      refine ⟨trivial, x, rfl, fun next => ?_⟩
      unfold scanString
      rw [hx]
      simp only [assemble_closed next rest', htext]
  | _ => cases h

/-- So does a key. -/
theorem scanKey_ok {cs rest : List Char} {key : Key} (h : scanKey cs = .ok (key, rest)) :
    ∃ x, cs = x ++ rest ∧ ∀ next, scanKey (x ++ next) = .ok (key, next) := by
  unfold scanKey at h
  rcases hs : scanString cs with flaw | ⟨o, rest'⟩
  · simp [hs] at h
  obtain ⟨-, x, rfl, hx⟩ := scanString_ok hs
  rw [hs] at h
  cases o with
  | raw value =>
    rcases hskip : value.skip with _ | m
    · simp only [hskip, Except.ok.injEq, Prod.mk.injEq] at h
      obtain ⟨rfl, rfl⟩ := h
      exact ⟨x, rfl, fun next => by simp [scanKey, hx, hskip]⟩
    · simp [hskip] at h
  | _ =>
    simp only [Except.ok.injEq, Prod.mk.injEq] at h
    obtain ⟨rfl, rfl⟩ := h
    exact ⟨x, rfl, fun next => by simp [scanKey, hx]⟩

/-! ## Words -/

theorem scanWord_ok {word cs rest : List Char} (h : scanWord word cs = .ok rest) :
    cs = word ++ rest ∧ ∀ next, scanWord word (word ++ next) = .ok next := by
  induction word generalizing cs with
  | nil =>
    simp only [scanWord, Except.ok.injEq] at h
    exact ⟨h, fun next => by simp [scanWord]⟩
  | cons w word ih =>
    rcases cs with _ | ⟨c, cs⟩
    · cases h
    rw [scanWord] at h
    split at h
    · rename_i hw
      obtain ⟨rfl, hnext⟩ := ih h
      exact ⟨by rw [hw]; rfl, fun next => by simp [scanWord, hnext]⟩
    · cases h

/-! ## Numerals -/

/-- What may follow a value: nothing, a blank, a comma or a closing bracket. -/
def Follows (rest : List Char) : Prop :=
  ∀ c ∈ rest.head?, isSpace c ∨ c = ',' ∨ c = ']' ∨ c = '}'

theorem Follows.not_numeral {rest : List Char} (h : Follows rest) :
    ∀ c ∈ rest.head?, isDigit c = false ∧ c ≠ '.' ∧ c ≠ 'e' ∧ c ≠ 'E' := by
  intro c hc
  have hcases := h c hc
  simp only [isSpace, Bool.or_eq_true, decide_eq_true_eq] at hcases
  rcases hcases with (((rfl | rfl) | rfl) | rfl) | rfl | rfl | rfl <;> decide

theorem Follows.noDigit {rest : List Char} (h : Follows rest) : NoDigit rest :=
  fun c hc => (h.not_numeral c hc).1

theorem noDigit_dropWhile (cs : List Char) : NoDigit (cs.dropWhile isDigit) := by
  intro c hc
  have hnot := List.head?_dropWhile_not isDigit cs
  rw [Option.mem_def.mp hc] at hnot
  exact hnot

/-- What a part of a text begins with does not change with what follows. -/
theorem forall_head_append {P : Char → Prop} {x rest next : List Char}
    (h : ∀ c ∈ (x ++ rest).head?, P c) (hnext : ∀ c ∈ next.head?, P c) :
    ∀ c ∈ (x ++ next).head?, P c := by
  cases x with
  | nil => exact hnext
  | cons c x => exact fun d hd => h d hd

variable {cs rest : List Char} {n : Numeral} {negative : Bool} {whole : List Char}

theorem isRun_takeWhile (h : (cs.takeWhile isDigit).isEmpty = false) :
    IsRun (cs.takeWhile isDigit) where
  ne_nil := by
    intro hnil
    simp [hnil] at h
  digit := fun _ hc => List.mem_takeWhile_imp hc

/-- The digits of an exponent end where no digit follows. -/
theorem exponentDigits_done {minus : Bool} {fraction : Option (List Char)}
    (h : (if (cs.takeWhile isDigit).isEmpty then lackOfDigit cs
      else .done ⟨negative, whole, fraction, some (minus, cs.takeWhile isDigit)⟩
        (cs.dropWhile isDigit)) = .done n rest) :
    ∃ ds, IsRun ds ∧ cs = ds ++ rest ∧ n = ⟨negative, whole, fraction, some (minus, ds)⟩ := by
  split at h
  · cases h
  · rename_i hds
    obtain ⟨rfl, rfl⟩ := NumeralScan.done.inj h
    exact ⟨_, isRun_takeWhile (by simpa using hds), List.takeWhile_append_dropWhile.symm, rfl⟩

theorem scanExponent_none (negative : Bool) (whole : List Char) (fraction : Option (List Char))
    (h : ∀ c ∈ cs.head?, c ≠ 'e' ∧ c ≠ 'E') :
    scanExponent negative whole fraction cs = .done ⟨negative, whole, fraction, none⟩ cs := by
  cases cs with
  | nil => rfl
  | cons c cs =>
    obtain ⟨hlow, hhigh⟩ := h c rfl
    simp [scanExponent, hlow, hhigh]

theorem scanExponent_done {fraction : Option (List Char)}
    (h : scanExponent negative whole fraction cs = .done n rest) :
    ∃ x, cs = x ++ rest ∧
      ∀ next, Follows next → scanExponent negative whole fraction (x ++ next) = .done n next := by
  by_cases hmark : ∀ c ∈ cs.head?, c ≠ 'e' ∧ c ≠ 'E'
  · rw [scanExponent_none negative whole fraction hmark] at h
    obtain ⟨rfl, rfl⟩ := NumeralScan.done.inj h
    exact ⟨[], rfl, fun next hnext =>
      scanExponent_none negative whole fraction fun c hc => (hnext.not_numeral c hc).2.2⟩
  · rcases cs with _ | ⟨c, cs⟩
    · simp at hmark
    have hc : c = 'e' ∨ c = 'E' := by
      simpa [or_iff_not_imp_left] using hmark
    simp only [scanExponent, if_pos hc] at h
    split at h
    · obtain ⟨ds, hds, rfl, rfl⟩ := exponentDigits_done h
      refine ⟨c :: '+' :: ds, rfl, fun next hnext => ?_⟩
      simp [scanExponent, hc, hds.takeWhile_append hnext.noDigit,
        hds.dropWhile_append hnext.noDigit, hds.ne_nil]
    · obtain ⟨ds, hds, rfl, rfl⟩ := exponentDigits_done h
      refine ⟨c :: '-' :: ds, rfl, fun next hnext => ?_⟩
      simp [scanExponent, hc, hds.takeWhile_append hnext.noDigit,
        hds.dropWhile_append hnext.noDigit, hds.ne_nil]
    · obtain ⟨ds, hds, rfl, rfl⟩ := exponentDigits_done h
      refine ⟨c :: ds, rfl, fun next hnext => ?_⟩
      rcases ds with _ | ⟨d, ds⟩
      · exact absurd rfl hds.ne_nil
      have hd : isDigit d := hds.digit d List.mem_cons_self
      have hsign : d ≠ '+' ∧ d ≠ '-' := by
        constructor <;> rintro rfl <;> exact absurd hd (by decide)
      have htake := hds.takeWhile_append hnext.noDigit
      have hdrop := hds.dropWhile_append hnext.noDigit
      rw [List.cons_append] at htake hdrop
      simp [scanExponent, hc, hsign, htake, hdrop]

theorem scanFraction_none (negative : Bool) (whole : List Char) (h : ∀ c ∈ cs.head?, c ≠ '.') :
    scanFraction negative whole cs = scanExponent negative whole none cs := by
  cases cs with
  | nil => rfl
  | cons c cs =>
    rw [scanFraction]
    rintro tail htail
    exact h c rfl (List.cons.inj htail).1

theorem scanFraction_done (h : scanFraction negative whole cs = .done n rest) :
    ∃ x, cs = x ++ rest ∧
      ∀ next, Follows next → scanFraction negative whole (x ++ next) = .done n next := by
  by_cases hpoint : ∀ c ∈ cs.head?, c ≠ '.'
  · rw [scanFraction_none negative whole hpoint] at h
    obtain ⟨x, rfl, hnext⟩ := scanExponent_done h
    refine ⟨x, rfl, fun next hfollows => ?_⟩
    rw [scanFraction_none, hnext next hfollows]
    exact forall_head_append hpoint fun c hc => (hfollows.not_numeral c hc).2.1
  · rcases cs with _ | ⟨c, cs⟩
    · simp at hpoint
    obtain rfl : c = '.' := by simpa using hpoint
    simp only [scanFraction] at h
    split at h
    · cases h
    · rename_i hds
      have hrun := isRun_takeWhile (by simpa using hds)
      obtain ⟨x, hx, hnext⟩ := scanExponent_done h
      have hdigit := noDigit_dropWhile cs
      rw [hx] at hdigit
      refine ⟨'.' :: (cs.takeWhile isDigit ++ x), ?_, fun next hfollows => ?_⟩
      · rw [List.cons_append, List.append_assoc, ← hx, List.takeWhile_append_dropWhile]
      · have hbehind := forall_head_append hdigit hfollows.noDigit
        simp [scanFraction, List.append_assoc, hrun.takeWhile_append hbehind,
          hrun.dropWhile_append hbehind, hrun.ne_nil, hnext next hfollows]

theorem scanMagnitude_done (h : scanMagnitude negative cs = .done n rest) :
    ∃ x, cs = x ++ rest ∧ (∃ d x', x = d :: x' ∧ isDigit d) ∧
      ∀ next, Follows next → scanMagnitude negative (x ++ next) = .done n next := by
  unfold scanMagnitude at h
  dsimp only at h
  split at h
  · cases h
  · cases h
  · rename_i hne hzero
    obtain ⟨x, hx, hnext⟩ := scanFraction_done h
    have hdigit := noDigit_dropWhile cs
    rw [hx] at hdigit
    have hrun : IsRun (cs.takeWhile isDigit) := isRun_takeWhile (by simpa using hne)
    refine ⟨cs.takeWhile isDigit ++ x, ?_, ?_, fun next hfollows => ?_⟩
    · rw [List.append_assoc, ← hx, List.takeWhile_append_dropWhile]
    · rcases hds : cs.takeWhile isDigit with _ | ⟨d, ds⟩
      · exact absurd hds hne
      · exact ⟨d, ds ++ x, rfl, hrun.digit d (by simp [hds])⟩
    · have hbehind := forall_head_append hdigit hfollows.noDigit
      unfold scanMagnitude
      rw [List.append_assoc, hrun.takeWhile_append hbehind, hrun.dropWhile_append hbehind]
      dsimp only
      split
      · exact absurd ‹_› hne
      · exact absurd ‹_› (hzero _ _)
      · exact hnext next hfollows

/-- A numeral ends in front of what may follow a value. -/
theorem scanNumeral_done (h : scanNumeral cs = .done n rest) :
    ∃ x, cs = x ++ rest ∧ (∃ c x', x = c :: x' ∧ (c = '-' ∨ isDigit c)) ∧
      ∀ next, Follows next → scanNumeral (x ++ next) = .done n next := by
  unfold scanNumeral at h
  split at h
  · obtain ⟨x, rfl, -, hnext⟩ := scanMagnitude_done h
    exact ⟨'-' :: x, rfl, ⟨'-', x, rfl, .inl rfl⟩, hnext⟩
  · obtain ⟨x, rfl, ⟨d, x, rfl, hd⟩, hnext⟩ := scanMagnitude_done h
    refine ⟨d :: x, rfl, ⟨d, x, rfl, .inr hd⟩, fun next hfollows => ?_⟩
    rw [List.cons_append, scanNumeral]
    · exact hnext next hfollows
    · rintro _ hminus
      obtain ⟨rfl, -⟩ := List.cons.inj hminus
      exact absurd hd (by decide)

end Gateway.Json
