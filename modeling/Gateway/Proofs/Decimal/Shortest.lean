import Gateway.Decimal.Shortest
import Gateway.Proofs.Decimal.ReadBack
import Mathlib.Data.List.DropRight

/-!
# Shortest decimals have digits

A double that is not zero has a positive mantissa, no decimal zero rounds to it, and so its
significant digits are a run that begins with another digit than zero
(`shortest_eq_cons`). This is what makes its text a number at all.
-/

namespace Gateway.Decimal

open Float.Model
open Float.Model.UnpackedFloat

/-! ## Doubles that are not zero -/

/-- The bits of a double whose exponent and fraction are zero are those of a zero. -/
theorem unpack_eq_zero {x : Float}
    (hfield : x.toModel.toBits.toNat / Nat.pow 2 52 % Nat.pow 2 11 = 0)
    (hfraction : x.toModel.toBits.toNat % Nat.pow 2 52 = 0) :
    ∃ s, x.toModel.unpack = .zero s := by
  have hexponent : @unpackExponent Format.binary64 x.toModel.toBits.toBitVec = 0#11 := by
    apply BitVec.eq_of_toNat_eq
    simpa [unpackExponent, BitVec.extractLsb_toNat, Nat.shiftRight_eq_div_pow] using hfield
  have hmantissa : @unpackMantissa Format.binary64 x.toModel.toBits.toBitVec = 0#52 := by
    apply BitVec.eq_of_toNat_eq
    simpa [unpackMantissa, BitVec.extractLsb_toNat, Nat.shiftRight_eq_div_pow] using hfraction
  have hfinite : (0#11) ≠ -1#11 := by decide
  unfold Float.Model.unpack UnpackedFloat.unpack
  dsimp only
  rw [if_neg (hexponent ▸ hfinite), if_pos hexponent, dif_pos hmantissa]
  exact ⟨_, rfl⟩

theorem unpack_zero : ∃ s, (0.0 : Float).toModel.unpack = .zero s := by
  apply unpack_eq_zero
  · decide +kernel
  · decide +kernel

theorem mantissa_pos {x : Float} (h : (x == 0.0) = false) : 0 < (Binary.ofFloat x).mantissa := by
  by_contra hmantissa
  have hbits : x.toModel.toBits.toNat / Nat.pow 2 52 % Nat.pow 2 11 = 0
      ∧ x.toModel.toBits.toNat % Nat.pow 2 52 = 0 := by
    unfold Binary.ofFloat at hmantissa
    by_cases hfield : x.toBits.toNat / Nat.pow 2 52 % Nat.pow 2 11 = 0
    · simp only [hfield, if_true, Nat.not_lt, Nat.le_zero] at hmantissa
      exact ⟨hfield, hmantissa⟩
    · have hunit : 0 < Nat.pow 2 52 := by decide
      simp only [hfield, if_false] at hmantissa
      omega
  obtain ⟨s, hs⟩ := unpack_eq_zero hbits.1 hbits.2
  obtain ⟨t, ht⟩ := unpack_zero
  -- two zeros are equal whatever their signs
  have heq : (x == 0.0) = true := by
    show UnpackedFloat.beq x.toModel.unpack (0.0 : Float).toModel.unpack = true
    rw [hs, ht]
    rfl
  rw [heq] at h
  cases h

/-! ## The search -/

theorem upper_pos {base : Nat} (h : 0 < base) (e : Int) : 0 < upper base e := Nat.pow_pos h

theorem lower_pos {base : Nat} (h : 0 < base) (e : Int) : 0 < lower base e := Nat.pow_pos h

/-- Nothing but zero rounds to zero. -/
theorem Binary.readsBack_zero {b : Binary} (h : 0 < b.mantissa) (p : Int) :
    b.readsBack 0 p = false := by
  have hlow : 0 < 4 * b.mantissa - (if b.closeBelow then 1 else 2) := by
    split <;> omega
  have hleft : 0 < (4 * b.mantissa - (if b.closeBelow then 1 else 2))
      * upper 2 (b.exponent - 2) * lower 10 p :=
    Nat.mul_pos (Nat.mul_pos hlow (upper_pos (by decide) _)) (lower_pos (by decide) _)
  unfold Binary.readsBack
  simp only [Nat.zero_mul]
  split
  · simp [Nat.not_le.mpr hleft]
  · simp

theorem Binary.onGrid_pos {b : Binary} (h : 0 < b.mantissa) {tie : Tie} {p : Int} {d : Nat}
    (hd : b.onGrid tie p = some d) : 0 < d := by
  have hfloor : ∀ n, b.readsBack n p = true → 0 < n := by
    intro n hn
    rcases Nat.eq_zero_or_pos n with rfl | hpos
    · rw [Binary.readsBack_zero h] at hn
      cases hn
    · exact hpos
  unfold Binary.onGrid at hd
  dsimp only at hd
  split at hd
  next => cases hd
  next hread _ => exact Option.some.inj hd ▸ hfloor _ hread
  next => exact Option.some.inj hd ▸ Nat.succ_pos _
  next hread _ =>
    split at hd
    · exact Option.some.inj hd ▸ hfloor _ hread
    · exact Option.some.inj hd ▸ Nat.succ_pos _
    · split at hd
      · exact Option.some.inj hd ▸ hfloor _ hread
      · exact Option.some.inj hd ▸ Nat.succ_pos _

theorem Binary.search_pos {b : Binary} (h : 0 < b.mantissa) {tie : Tie} {fuel : Nat} {p q : Int}
    {d : Nat} (hd : b.search tie fuel p = some (d, q)) : 0 < d := by
  induction fuel generalizing p with
  | zero => cases hd
  | succ fuel ih =>
    unfold Binary.search at hd
    split at hd
    next hgrid =>
      cases hd
      exact Binary.onGrid_pos h hgrid
    next => exact ih hd

/-! ## The digits -/

theorem digitChar_ne_zero : ∀ n < 10, 0 < n → digitChar n ≠ '0' := by decide

/-- A positive number has no leading zero. -/
theorem digits_eq_cons {n : Nat} (h : 0 < n) : ∃ c cs, digits n = c :: cs ∧ c ≠ '0' := by
  induction n using digits.induct with
  | case1 n hn => exact ⟨digitChar n, [], digits_of_lt hn, digitChar_ne_zero n hn h⟩
  | case2 n hn ih =>
    obtain ⟨c, cs, hcs, hc⟩ := ih (by omega)
    exact ⟨c, cs ++ [digitChar (n % 10)], by rw [digits_of_ge (by omega), hcs]; rfl, hc⟩

/-- The digits of a positive value: the first is not zero. -/
theorem Binary.shortest_eq_cons {b : Binary} (h : 0 < b.mantissa) (tie : Tie) :
    ∃ c cs, (b.shortest tie).1 = c :: cs ∧ c ≠ '0' ∧ ∀ d ∈ c :: cs, isDigit d := by
  have hexact : 0 < b.mantissa * upper 2 b.exponent * lower 5 b.exponent :=
    Nat.mul_pos (Nat.mul_pos h (upper_pos (by decide) _)) (lower_pos (by decide) _)
  obtain ⟨d, p, hd, hpos⟩ : ∃ d p, (b.search tie 17 (b.scale - 1)).getD
      (b.mantissa * upper 2 b.exponent * lower 5 b.exponent, min b.exponent 0) = (d, p)
      ∧ 0 < d := by
    rcases hsearch : b.search tie 17 (b.scale - 1) with _ | ⟨d, p⟩
    · exact ⟨_, _, rfl, hexact⟩
    · exact ⟨d, p, rfl, Binary.search_pos h hsearch⟩
  obtain ⟨c, cs, hcs, hc⟩ := digits_eq_cons hpos
  -- the zeros at the end go, and what is left is the front of the digits
  have hkept : (b.shortest tie).1 = (digits d).rdropWhile (· = '0') := by
    unfold Binary.shortest
    simp only [hd]
    rfl
  have hprefix : (digits d).rdropWhile (· = '0') <+: digits d := List.rdropWhile_prefix _ _
  have hne : (digits d).rdropWhile (· = '0') ≠ [] := by
    intro hnil
    have hall := List.rdropWhile_eq_nil_iff.mp hnil c (hcs ▸ List.mem_cons_self)
    exact hc (of_decide_eq_true hall)
  rcases hfront : (digits d).rdropWhile (· = '0') with _ | ⟨e, es⟩
  · exact absurd hfront hne
  · rw [hfront, hcs] at hprefix
    obtain ⟨rfl, _⟩ := List.cons_prefix_cons.mp hprefix
    refine ⟨e, es, hkept.trans hfront, hc, ?_⟩
    intro a ha
    apply isDigit_of_mem_digits (n := d)
    rw [← hfront] at ha
    exact (List.rdropWhile_prefix _ _).subset ha

end Gateway.Decimal
