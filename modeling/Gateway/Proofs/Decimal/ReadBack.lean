import Gateway.Decimal.Natural
import Mathlib.Data.Nat.Basic

/-!
# Reading decimal digits back

What is written for a natural number holds digits only (`isDigit_of_mem_digits`), at least
one, and is read back as that number by every reader whose range has it
(`readUnsigned_digits`).
-/

namespace Gateway.Decimal

theorem digitChar_spec : ∀ n < 10, isDigit (digitChar n) ∧ digitValue (digitChar n) = n := by
  decide

theorem digits_of_lt {n : Nat} (h : n < 10) : digits n = [digitChar n] := by
  rw [digits, dif_pos h]

theorem digits_of_ge {n : Nat} (h : 10 ≤ n) :
    digits n = digits (n / 10) ++ [digitChar (n % 10)] := by
  rw [digits, dif_neg (by omega)]

theorem digits_ne_nil (n : Nat) : digits n ≠ [] := by
  by_cases h : n < 10
  · simp [digits_of_lt h]
  · simp [digits_of_ge (Nat.not_lt.mp h)]

theorem isDigit_of_mem_digits {n : Nat} {c : Char} (h : c ∈ digits n) : isDigit c := by
  induction n using digits.induct with
  | case1 n hn =>
    rw [digits_of_lt hn, List.mem_singleton] at h
    exact h ▸ (digitChar_spec n hn).1
  | case2 n hn ih =>
    rw [digits_of_ge (Nat.not_lt.mp hn), List.mem_append, List.mem_singleton] at h
    rcases h with h | rfl
    · exact ih h
    · exact (digitChar_spec (n % 10) (Nat.mod_lt n (by omega))).1

/-! ## Reading -/

theorem takeDigits_append (bound : Nat) (excess : IntegerFault) (acc : Nat) (cs ds : List Char) :
    takeDigits bound excess acc (cs ++ ds) =
      (takeDigits bound excess acc cs).bind fun acc => takeDigits bound excess acc ds := by
  induction cs generalizing acc with
  | nil => rfl
  | cons c cs ih =>
    simp only [List.cons_append, takeDigits]
    split
    · split
      · exact ih _
      · rfl
    · rfl

theorem takeDigits_digitChar {bound acc d : Nat} (excess : IntegerFault) (hd : d < 10)
    (h : acc * 10 + d ≤ bound) :
    takeDigits bound excess acc [digitChar d] = .ok (acc * 10 + d) := by
  obtain ⟨hdigit, hvalue⟩ := digitChar_spec d hd
  simp [takeDigits, hdigit, hvalue, h]

theorem takeDigits_digits {bound n : Nat} (excess : IntegerFault) (h : n ≤ bound) :
    takeDigits bound excess 0 (digits n) = .ok n := by
  induction n using digits.induct with
  | case1 n hn =>
    rw [digits_of_lt hn, takeDigits_digitChar excess hn (by omega)]
    simp
  | case2 n hn ih =>
    have hsplit : n / 10 * 10 + n % 10 = n := Nat.div_add_mod' n 10
    rw [digits_of_ge (Nat.not_lt.mp hn), takeDigits_append, ih (by omega)]
    show takeDigits bound excess (n / 10) [digitChar (n % 10)] = .ok n
    rw [takeDigits_digitChar excess (Nat.mod_lt n (by omega)) (by omega), hsplit]

/-- A number reads back from its digits. -/
theorem readUnsigned_digits {bound n : Nat} (h : n ≤ bound) :
    readUnsigned bound (digits n) = .ok n := by
  have hrun : takeRun bound .tooLarge (digits n) = .ok n := by
    have htake := takeDigits_digits .tooLarge h
    rcases hcs : digits n with _ | ⟨c, cs⟩
    · exact absurd hcs (digits_ne_nil n)
    · rwa [hcs] at htake
  have hplus : ∀ cs, digits n ≠ '+' :: cs := by
    intro cs hcs
    have hdigit : isDigit '+' := isDigit_of_mem_digits (hcs ▸ List.mem_cons_self)
    exact absurd hdigit (by decide)
  rw [readUnsigned.eq_3 bound _ (digits_ne_nil n) hplus, hrun]

end Gateway.Decimal
