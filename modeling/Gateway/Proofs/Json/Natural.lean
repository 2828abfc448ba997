import Gateway.Proofs.Json.Exchange
import Gateway.Proofs.Json.Spelled

/-!
# Natural numbers are digits alone

A number in a text is read as a natural one exactly if it has neither sign nor fraction nor
exponent and is within 64 bits (`Numeral.value_eq_natural`). So the text of a natural number is
its digits (`digits_of_spells`), and digits alone that are the text of a value are read as their
number (`number_of_digits`).
-/

namespace Gateway.Json

open Gateway.Decimal

variable {cs rest : List Char} {n : Numeral} {negative : Bool} {whole : List Char}

theorem scanExponent_parts {fraction : Option (List Char)}
    (h : scanExponent negative whole fraction cs = .done n rest) :
    n.negative = negative ∧ n.whole = whole ∧ n.fraction = fraction ∧
      (n.exponent = none → rest = cs) := by
  by_cases hmark : ∀ c ∈ cs.head?, c ≠ 'e' ∧ c ≠ 'E'
  · rw [scanExponent_none negative whole fraction hmark] at h
    obtain ⟨rfl, rfl⟩ := NumeralScan.done.inj h
    exact ⟨rfl, rfl, rfl, fun _ => rfl⟩
  · rcases cs with _ | ⟨c, cs⟩
    · simp at hmark
    have hc : c = 'e' ∨ c = 'E' := by simpa [or_iff_not_imp_left] using hmark
    simp only [scanExponent, if_pos hc] at h
    split at h <;>
    · obtain ⟨ds, -, -, rfl⟩ := exponentDigits_done h
      exact ⟨rfl, rfl, rfl, fun h => by cases h⟩

theorem scanFraction_parts (h : scanFraction negative whole cs = .done n rest) :
    n.negative = negative ∧ n.whole = whole ∧
      (n.fraction = none → n.exponent = none → rest = cs) := by
  unfold scanFraction at h
  split at h
  · dsimp only at h
    split at h
    · cases h
    · obtain ⟨hnegative, hwhole, hfraction, -⟩ := scanExponent_parts h
      exact ⟨hnegative, hwhole, fun hnone => by rw [hfraction] at hnone; cases hnone⟩
  · obtain ⟨hnegative, hwhole, -, hend⟩ := scanExponent_parts h
    exact ⟨hnegative, hwhole, fun _ => hend⟩

theorem scanMagnitude_parts (h : scanMagnitude negative cs = .done n rest) :
    n.negative = negative ∧ IsRun n.whole ∧
      (n.fraction = none → n.exponent = none → cs = n.whole ++ rest) := by
  unfold scanMagnitude at h
  dsimp only at h
  split at h
  · cases h
  · cases h
  · rename_i hne _
    obtain ⟨hnegative, hwhole, hend⟩ := scanFraction_parts h
    refine ⟨hnegative, hwhole ▸ isRun_takeWhile (by simpa using hne), fun hfraction hexponent => ?_⟩
    rw [hwhole, hend hfraction hexponent, List.takeWhile_append_dropWhile]

theorem scanMagnitude_of_scanNumeral (h : scanNumeral cs = .done n rest)
    (hpositive : n.negative = false) : scanMagnitude false cs = .done n rest := by
  unfold scanNumeral at h
  split at h
  · obtain ⟨hnegative, -⟩ := scanMagnitude_parts h
    rw [hpositive] at hnegative
    cases hnegative
  · exact h

/-- A numeral that is a natural number has neither sign nor fraction nor exponent. -/
theorem Numeral.value_eq_natural {k : UInt64} : n.value = .ok (.natural k) ↔
    n.negative = false ∧ n.fraction = none ∧ n.exponent = none ∧ ofDigits n.whole = k.toNat := by
  obtain ⟨negative, whole, fraction, exponent⟩ := n
  have hdouble : ∀ (x : Except Malformed Float) (f : Float → Float),
      x.map (fun x => Number.double (f x)) ≠ .ok (.natural k) := by
    intro x f h
    obtain ⟨_, -, h⟩ := map_eq_ok.mp h
    cases h
  rcases fraction with _ | ds
  · rcases exponent with _ | e
    · rcases negative with _ | _
      · have hbound := toNat_le_wordBound k
        simp only [Numeral.value]
        by_cases hword : ofDigits whole ≤ wordBound
        · have hlt : ofDigits whole < 2 ^ 64 := by
            have hvalue : wordBound = 2 ^ 64 - 1 := by decide
            omega
          have htoNat : (UInt64.ofNat (ofDigits whole)).toNat = ofDigits whole :=
            UInt64.toNat_ofNat_of_lt hlt
          simp [hword, ← UInt64.toNat_inj, htoNat, -UInt64.toNat_ofNat']
        · simp only [Bool.false_eq_true, if_false, if_neg hword]
          refine ⟨fun h => absurd h (hdouble _ _), ?_⟩
          rintro ⟨-, -, -, h⟩
          omega
      · simp only [Numeral.value, if_true]
        refine ⟨fun h => ?_, fun h => absurd h.1 (by simp)⟩
        split at h
        · cases h
        · exact absurd h (hdouble _ _)
    · exact ⟨fun h => absurd h (hdouble _ _), by rintro ⟨-, -, ⟨⟩, -⟩⟩
  · exact ⟨fun h => absurd h (hdouble _ _), by rintro ⟨-, ⟨⟩, -⟩⟩

/-- A value that begins with a minus sign or a digit is a numeral. -/
theorem scanValue_numeral {c : Char} (hc : c = '-' ∨ isDigit c) (fuel : Nat) (cs : List Char) :
    scanValue (fuel + 1) (c :: cs) =
      match scanNumeral (c :: cs) with
      | .done n rest => (.number n.value, some rest)
      | .broken flaw => (.broken flaw, none) := by
  have hother : isSpace c = false ∧ c ≠ '[' ∧ c ≠ '{' ∧ c ≠ '"' ∧ c ≠ 'n' ∧ c ≠ 't' ∧ c ≠ 'f' := by
    rcases hc with rfl | hc
    · decide
    · obtain ⟨d, ds, heq, hspace, -⟩ := opens_of_isDigit hc cs
      obtain ⟨rfl, -⟩ := List.cons.inj heq
      refine ⟨hspace, ?_, ?_, ?_, ?_, ?_, ?_⟩ <;> rintro rfl <;> exact absurd hc (by decide)
  obtain ⟨hspace, hlist, hobject, hquote, hnull, htrue, hfalse⟩ := hother
  rw [scanValue, skipSpace_cons hspace]
  split
  case h_8 heq =>
    obtain ⟨rfl, rfl⟩ := List.cons.inj heq
    exact if_pos hc
  all_goals simp_all

theorem scanString_ne_number {value : Except Malformed Number} :
    scanString cs ≠ .ok (.number value, rest) := by
  intro h
  unfold scanString at h
  dsimp only at h
  split at h
  · split at h <;> cases h
  · cases h

theorem scanLiteral_ne_number {o : Outline} {word : List Char} {value : Except Malformed Number}
    (ho : ∀ x, o ≠ .number x) : scanLiteral o word cs ≠ (.number value, some rest) := by
  intro h
  unfold scanLiteral at h
  split at h
  · exact ho _ (Prod.mk.inj h).1
  · cases h

/-- The text of a natural number is its digits. -/
theorem digits_of_spells {k : UInt64} (h : Spells cs (.number (.ok (.natural k)))) :
    ∃ w ds, cs = w ++ ds ∧ IsBlank w ∧ IsRun ds ∧ ofDigits ds = k.toNat := by
  obtain ⟨w, hw, hcs⟩ := exists_blank cs
  have hscan := h (2 * cs.length + 1) [] (by omega) follows_nil
  rw [List.append_nil, scanValue] at hscan
  split at hscan
  · cases hscan
  · split at hscan <;> cases hscan
  · split at hscan <;> cases hscan
  · split at hscan
    · cases hscan
      exact absurd ‹_› scanString_ne_number
    · cases hscan
  · exact absurd hscan (scanLiteral_ne_number (by simp))
  · exact absurd hscan (scanLiteral_ne_number (by simp))
  · exact absurd hscan (scanLiteral_ne_number (by simp))
  · rename_i c tail _ _ _ _ _ _ hskip
    split at hscan
    · rcases hnumeral : scanNumeral (c :: tail) with ⟨n, rest⟩ | flaw
      · simp only [hnumeral, Prod.mk.injEq, Outline.number.injEq, Option.some.injEq] at hscan
        obtain ⟨hvalue, rfl⟩ := hscan
        obtain ⟨hpositive, hfraction, hexponent, hdigits⟩ := Numeral.value_eq_natural.mp hvalue
        have hmagnitude := scanMagnitude_of_scanNumeral hnumeral hpositive
        obtain ⟨-, hrun, hend⟩ := scanMagnitude_parts hmagnitude
        rw [hskip, hend hfraction hexponent, List.append_nil] at hcs
        exact ⟨w, n.whole, hcs, hw, hrun, hdigits⟩
      · simp [hnumeral] at hscan
    · cases hscan

/-- Digits alone that are the text of a value are that of their number. -/
theorem number_of_digits {w ds : List Char} {o : Outline} (h : Spells (w ++ ds) o) (hw : IsBlank w)
    (hds : IsRun ds) : o = .number (Numeral.value ⟨false, ds, none, none⟩) := by
  have hscan := h (2 * (w ++ ds).length + 1) [] (by omega) follows_nil
  obtain ⟨d, tail, rfl⟩ := List.exists_cons_of_ne_nil hds.ne_nil
  have hd : isDigit d := hds.digit d List.mem_cons_self
  have hnext : NoDigit [] := by simp [NoDigit]
  have htake := hds.takeWhile_append hnext
  have hdrop := hds.dropWhile_append hnext
  have hminus : ∀ cs, d :: tail ≠ '-' :: cs := by
    intro cs heq
    obtain ⟨rfl, -⟩ := List.cons.inj heq
    exact absurd hd (by decide)
  rw [List.append_nil] at hscan htake hdrop
  rw [hw.scanValue, scanValue_numeral (.inr hd), scanNumeral.eq_2 _ hminus] at hscan
  simp only [scanMagnitude, htake, hdrop] at hscan
  split at hscan
  · rename_i n rest hdone
    split at hdone
    · simp_all
    · cases hdone
    · cases hdone
      exact (Prod.mk.inj hscan).1.symm
  · cases hscan

/-- A text has one layout. -/
theorem Spells.unique {cs : List Char} {o o' : Outline} (h : Spells cs o) (h' : Spells cs o') :
    o = o' := by
  have hscan := h (2 * cs.length) [] le_rfl follows_nil
  rw [h' _ [] le_rfl follows_nil] at hscan
  exact (Prod.mk.inj hscan).1.symm

end Gateway.Json
