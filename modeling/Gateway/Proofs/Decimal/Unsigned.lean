import Gateway.Proofs.Json.Numeral
import Gateway.Text.Basic

/-!
# Unsigned numbers between blanks

The reader of unsigned numbers takes a run of digits, any number of zeros in front included, if
its value is within the range, and a plus sign before it (`readUnsigned_eq_ok`). Trimming a text
takes blanks from both ends and nothing else (`Text.exists_trim`, `Text.trim_append`).
-/

namespace Gateway

open Gateway.Json Gateway.Decimal

/-! ## Digits -/

namespace Decimal

theorem le_foldl_digits (acc : Nat) (cs : List Char) :
    acc ≤ cs.foldl (fun n c => n * 10 + digitValue c) acc := by
  induction cs generalizing acc with
  | nil => exact le_rfl
  | cons c cs ih =>
    have hnext := ih (acc * 10 + digitValue c)
    rw [List.foldl_cons]
    omega

theorem takeDigits_eq_ok {bound acc n : Nat} {excess : IntegerFault} {cs : List Char}
    (hacc : acc ≤ bound) : takeDigits bound excess acc cs = .ok n ↔
      (∀ c ∈ cs, isDigit c) ∧ cs.foldl (fun n c => n * 10 + digitValue c) acc = n ∧
        n ≤ bound := by
  induction cs generalizing acc with
  | nil =>
    simp only [takeDigits, Except.ok.injEq, List.foldl_nil]
    constructor
    · rintro rfl
      exact ⟨by simp, rfl, hacc⟩
    · exact fun h => h.2.1
  | cons c cs ih =>
    rw [takeDigits, List.forall_mem_cons, List.foldl_cons]
    by_cases hdigit : isDigit c
    · by_cases hnext : acc * 10 + digitValue c ≤ bound
      · simp [hdigit, hnext, ih hnext]
      · -- a value that has left the range does not come back
        have hmore := le_foldl_digits (acc * 10 + digitValue c) cs
        simp only [hdigit, if_true, if_neg hnext]
        constructor
        · intro h
          cases h
        · rintro ⟨-, rfl, hle⟩
          exact absurd (hmore.trans hle) hnext
    · simp [hdigit]

theorem takeRun_eq_ok {bound n : Nat} {excess : IntegerFault} {cs : List Char} :
    takeRun bound excess cs = .ok n ↔ IsRun cs ∧ ofDigits cs = n ∧ n ≤ bound := by
  rcases cs with _ | ⟨c, cs⟩
  · constructor
    · intro h
      cases h
    · rintro ⟨hrun, -⟩
      exact absurd rfl hrun.ne_nil
  · rw [takeRun, takeDigits_eq_ok (Nat.zero_le bound)]
    constructor
    · rintro ⟨hdigits, hn⟩
      exact ⟨⟨by simp, hdigits⟩, hn⟩
    · rintro ⟨hrun, hn⟩
      exact ⟨hrun.digit, hn⟩

/-- The reader of unsigned numbers takes a run of digits of its range, and a plus sign. -/
theorem readUnsigned_eq_ok {bound n : Nat} {cs : List Char} :
    readUnsigned bound cs = .ok n ↔
      ∃ sign ds, cs = sign ++ ds ∧ (sign = [] ∨ sign = ['+']) ∧ IsRun ds ∧ ofDigits ds = n ∧
        n ≤ bound := by
  constructor
  · intro h
    unfold readUnsigned at h
    split at h
    · cases h
    · exact ⟨['+'], _, rfl, .inr rfl, takeRun_eq_ok.mp h⟩
    · exact ⟨[], _, rfl, .inl rfl, takeRun_eq_ok.mp h⟩
  · rintro ⟨sign, ds, rfl, rfl | rfl, hrun, hn⟩
    · have hplus : ∀ cs, ds ≠ '+' :: cs := by
        rintro cs rfl
        exact absurd (hrun.digit '+' List.mem_cons_self) (by decide)
      rw [List.nil_append, readUnsigned.eq_3 bound _ hrun.ne_nil hplus]
      exact takeRun_eq_ok.mpr ⟨hrun, hn⟩
    · exact takeRun_eq_ok.mpr ⟨hrun, hn⟩

end Decimal

/-! ## Blanks at both ends -/

namespace Text

/-- A text is what is left of it between the blanks at its ends. -/
theorem exists_trim (cs : List Char) : ∃ w u, cs = w ++ (trim cs ++ u) ∧
    (∀ c ∈ w, isBlank c) ∧ ∀ c ∈ u, isBlank c := by
  refine ⟨cs.takeWhile isBlank, ((trimFront cs).reverse.takeWhile isBlank).reverse, ?_,
    fun _ hc => List.mem_takeWhile_imp hc, fun _ hc => ?_⟩
  · have hback : trim cs ++ ((trimFront cs).reverse.takeWhile isBlank).reverse = trimFront cs := by
      rw [trim, trimBack, ← List.reverse_append, List.takeWhile_append_dropWhile,
        List.reverse_reverse]
    rw [hback, trimFront, List.takeWhile_append_dropWhile]
  · exact List.mem_takeWhile_imp (List.mem_reverse.mp hc)

theorem dropWhile_isBlank {cs : List Char} (h : ∀ c ∈ cs, isBlank c = false) :
    cs.dropWhile isBlank = cs := by
  cases cs with
  | nil => rfl
  | cons c cs => rw [List.dropWhile_cons_of_neg (by simp [h c List.mem_cons_self])]

/-- Nothing but the blanks at the ends is lost. -/
theorem trim_append {w core u : List Char} (hw : ∀ c ∈ w, isBlank c) (hu : ∀ c ∈ u, isBlank c)
    (hne : core ≠ []) (hcore : ∀ c ∈ core, isBlank c = false) :
    trim (w ++ (core ++ u)) = core := by
  have hfront : trimFront (w ++ (core ++ u)) = core ++ u := by
    obtain ⟨c, cs, rfl⟩ := List.exists_cons_of_ne_nil hne
    have hc : ¬ isBlank c = true := by simp [hcore c List.mem_cons_self]
    rw [trimFront, List.dropWhile_append_of_pos hw, List.cons_append,
      List.dropWhile_cons_of_neg hc]
  have hback : (core ++ u).reverse.dropWhile isBlank = core.reverse := by
    rw [List.reverse_append, List.dropWhile_append_of_pos (by simpa using hu),
      dropWhile_isBlank (by simpa using hcore)]
  rw [trim, hfront, trimBack, hback, List.reverse_reverse]

theorem isBlank_of_isDigit {c : Char} (h : isDigit c) : isBlank c = false := by
  simp only [isDigit, Bool.and_eq_true, decide_eq_true_eq] at h
  simp only [isBlank, blankRanges, List.any_cons, List.any_nil, Bool.or_false,
    Bool.or_eq_false_iff, Bool.and_eq_false_iff, decide_eq_false_iff_not]
  omega

end Text

end Gateway
