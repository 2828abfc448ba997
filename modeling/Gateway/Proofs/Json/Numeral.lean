import Gateway.Json.Numeral
import Gateway.Proofs.Decimal.Shortest

/-!
# Numbers are read to their end

The text of a number is a sign, digits, perhaps a fraction and perhaps an exponent with its
sign (`Numeral.text`). In front of what may follow a value inside a list or an object, such a
text is found whole (`scanNumeral_text`). Every number that is written has a text of this form
(`exists_text_print`), a double by the way its digits are set out.
-/

namespace Gateway.Json

open Gateway.Decimal

/-! ## What may follow a value -/

/-- Nothing follows, or a character that ends a value. -/
def Stops (rest : List Char) : Prop := ∀ c ∈ rest.head?, c = ',' ∨ c = ']' ∨ c = '}'

theorem stops_nil : Stops [] := by simp [Stops]

theorem stops_comma (cs : List Char) : Stops (',' :: cs) := by simp [Stops]

theorem stops_bracket (cs : List Char) : Stops (']' :: cs) := by simp [Stops]

theorem stops_brace (cs : List Char) : Stops ('}' :: cs) := by simp [Stops]

/-- A character that ends a value is no part of a number. -/
theorem Stops.not_numeral {c : Char} {cs : List Char} (h : Stops (c :: cs)) :
    isDigit c = false ∧ c ≠ '.' ∧ c ≠ 'e' ∧ c ≠ 'E' := by
  rcases h c rfl with rfl | rfl | rfl <;> decide

/-! ## Runs of digits -/

structure IsRun (ds : List Char) : Prop where
  ne_nil : ds ≠ []
  digit : ∀ c ∈ ds, isDigit c

theorem isRun_digits (n : Nat) : IsRun (digits n) :=
  ⟨digits_ne_nil n, fun _ h => isDigit_of_mem_digits h⟩

theorem isRun_zero : IsRun ['0'] where
  ne_nil := by simp
  digit := by
    intro c hc
    obtain rfl := List.mem_singleton.mp hc
    decide

theorem IsRun.cons_append {c : Char} {cs ds : List Char} (h : ∀ d ∈ c :: cs, isDigit d)
    (hds : ∀ d ∈ ds, isDigit d) : IsRun (c :: cs ++ ds) where
  ne_nil := by simp
  digit := by
    intro d hd
    rcases List.mem_append.mp hd with hd | hd
    · exact h d hd
    · exact hds d hd

theorem IsRun.isEmpty {ds : List Char} (h : IsRun ds) : ds.isEmpty = false := by
  cases ds with
  | nil => exact absurd rfl h.ne_nil
  | cons c cs => rfl

/-- No digit stands first. -/
def NoDigit (rest : List Char) : Prop := ∀ c ∈ rest.head?, isDigit c = false

theorem Stops.noDigit {rest : List Char} (h : Stops rest) : NoDigit rest := by
  intro c hc
  rcases h c hc with rfl | rfl | rfl <;> decide

theorem NoDigit.takeWhile {rest : List Char} (h : NoDigit rest) : rest.takeWhile isDigit = [] := by
  cases rest with
  | nil => rfl
  | cons c cs => rw [List.takeWhile_cons_of_neg (by simp [h c rfl])]

theorem NoDigit.dropWhile {rest : List Char} (h : NoDigit rest) :
    rest.dropWhile isDigit = rest := by
  cases rest with
  | nil => rfl
  | cons c cs => rw [List.dropWhile_cons_of_neg (by simp [h c rfl])]

theorem IsRun.takeWhile_append {ds rest : List Char} (h : IsRun ds) (hrest : NoDigit rest) :
    (ds ++ rest).takeWhile isDigit = ds := by
  rw [List.takeWhile_append_of_pos h.digit, hrest.takeWhile, List.append_nil]

theorem IsRun.dropWhile_append {ds rest : List Char} (h : IsRun ds) (hrest : NoDigit rest) :
    (ds ++ rest).dropWhile isDigit = rest := by
  rw [List.dropWhile_append_of_pos h.digit, hrest.dropWhile]

theorem ofDigits_concat (ds : List Char) (c : Char) :
    ofDigits (ds ++ [c]) = ofDigits ds * 10 + digitValue c := by
  simp [ofDigits]

theorem ofDigits_digits (n : Nat) : ofDigits (digits n) = n := by
  induction n using digits.induct with
  | case1 n hn =>
    rw [digits_of_lt hn]
    show 0 * 10 + digitValue (digitChar n) = n
    rw [(digitChar_spec n hn).2]
    omega
  | case2 n hn ih =>
    have hmod : n % 10 < 10 := Nat.mod_lt n (by decide)
    rw [digits_of_ge (by omega), ofDigits_concat, ih, (digitChar_spec _ hmod).2]
    omega

/-! ## The text of a numeral -/

namespace Numeral

def fractionText : Option (List Char) → List Char
  | none => []
  | some ds => '.' :: ds

/-- The exponent behind its mark, always with its sign. -/
def exponentText : Option (Bool × List Char) → List Char
  | none => []
  | some (minus, ds) => 'e' :: (if minus then '-' else '+') :: ds

/-- A numeral without its sign. -/
def body (n : Numeral) : List Char :=
  n.whole ++ (fractionText n.fraction ++ exponentText n.exponent)

def text (n : Numeral) : List Char := if n.negative then '-' :: n.body else n.body

structure WellFormed (n : Numeral) : Prop where
  whole : IsRun n.whole
  /-- A leading zero stands alone. -/
  zero : ∀ cs, n.whole = '0' :: cs → cs = []
  fraction : ∀ ds ∈ n.fraction, IsRun ds
  exponent : ∀ e ∈ n.exponent, IsRun e.2

end Numeral

open Numeral

variable {rest : List Char} {whole : List Char} {fraction : Option (List Char)}
  {exponent : Option (Bool × List Char)}

/-! ## Scanning it -/

theorem scanExponent_text (hexponent : ∀ e ∈ exponent, IsRun e.2) (hrest : Stops rest)
    (negative : Bool) :
    scanExponent negative whole fraction (exponentText exponent ++ rest) =
      .done ⟨negative, whole, fraction, exponent⟩ rest := by
  rcases exponent with _ | ⟨minus, ds⟩
  · -- what ends a value is no mark of an exponent
    cases rest with
    | nil => rfl
    | cons c cs =>
      obtain ⟨_, _, he, hE⟩ := hrest.not_numeral
      simp [exponentText, scanExponent, he, hE]
  · have hrun : IsRun ds := hexponent _ rfl
    have htake := hrun.takeWhile_append hrest.noDigit
    have hdrop := hrun.dropWhile_append hrest.noDigit
    cases minus with
    | false => simp [exponentText, scanExponent, htake, hdrop, hrun.ne_nil]
    | true => simp [exponentText, scanExponent, htake, hdrop, hrun.ne_nil]

theorem noDigit_exponentText (hrest : Stops rest) : NoDigit (exponentText exponent ++ rest) := by
  rcases exponent with _ | ⟨minus, ds⟩
  · exact hrest.noDigit
  · intro c hc
    cases hc
    decide

theorem scanFraction_text (hfraction : ∀ ds ∈ fraction, IsRun ds)
    (hexponent : ∀ e ∈ exponent, IsRun e.2) (hrest : Stops rest) (negative : Bool) :
    scanFraction negative whole (fractionText fraction ++ (exponentText exponent ++ rest)) =
      .done ⟨negative, whole, fraction, exponent⟩ rest := by
  rcases fraction with _ | ds
  · have hdot : ∀ more, exponentText exponent ++ rest ≠ '.' :: more := by
      intro more hmore
      rcases exponent with _ | ⟨minus, ds⟩
      · obtain rfl : rest = '.' :: more := hmore
        exact hrest.not_numeral.2.1 rfl
      · exact absurd (List.cons.inj hmore).1 (by decide)
    show scanFraction negative whole (exponentText exponent ++ rest) = _
    rw [scanFraction.eq_2 _ _ _ hdot]
    exact scanExponent_text hexponent hrest negative
  · have hrun : IsRun ds := hfraction ds rfl
    have hnext : NoDigit (exponentText exponent ++ rest) := noDigit_exponentText hrest
    show scanFraction negative whole ('.' :: (ds ++ (exponentText exponent ++ rest))) = _
    simp only [scanFraction, hrun.takeWhile_append hnext, hrun.dropWhile_append hnext,
      hrun.isEmpty, Bool.false_eq_true, if_false]
    exact scanExponent_text hexponent hrest negative

theorem noDigit_fractionText (fraction : Option (List Char))
    (exponent : Option (Bool × List Char)) (hrest : Stops rest) :
    NoDigit (fractionText fraction ++ (exponentText exponent ++ rest)) := by
  rcases fraction with _ | ds
  · exact noDigit_exponentText hrest
  · intro c hc
    cases hc
    decide

theorem scanMagnitude_body {n : Numeral} (h : n.WellFormed) (hrest : Stops rest) :
    scanMagnitude n.negative (n.body ++ rest) = .done n rest := by
  have hnext := noDigit_fractionText n.fraction n.exponent hrest
  unfold scanMagnitude body
  rw [List.append_assoc, List.append_assoc, h.whole.takeWhile_append hnext,
    h.whole.dropWhile_append hnext]
  have hfraction : ∀ w, scanFraction n.negative w (fractionText n.fraction
      ++ (exponentText n.exponent ++ rest)) = .done ⟨n.negative, w, n.fraction, n.exponent⟩ rest :=
    fun w => scanFraction_text h.fraction h.exponent hrest n.negative
  dsimp only
  split
  next hnil => exact absurd hnil h.whole.ne_nil
  next hzero => exact absurd (h.zero _ hzero) (by simp)
  next => rw [hfraction]

/-- A numeral in front of what may follow a value is found whole. -/
theorem scanNumeral_text {n : Numeral} (h : n.WellFormed) (hrest : Stops rest) :
    scanNumeral (n.text ++ rest) = .done n rest := by
  have hbody := scanMagnitude_body h hrest
  rcases n with ⟨_ | _, whole, fraction, exponent⟩
  · have hminus : ∀ cs, body ⟨false, whole, fraction, exponent⟩ ++ rest ≠ '-' :: cs := by
      intro cs hcs
      rcases hwhole : whole with _ | ⟨d, ds⟩
      · exact absurd hwhole h.whole.ne_nil
      · have hdigit : isDigit d := h.whole.digit d (by simp [hwhole])
        subst hwhole
        obtain rfl : d = '-' := (List.cons.inj hcs).1
        exact absurd hdigit (by decide)
    show scanNumeral (body ⟨false, whole, fraction, exponent⟩ ++ rest) = _
    rw [scanNumeral.eq_2 _ hminus]
    exact hbody
  · exact hbody

/-! ## How doubles are set out -/

variable {c : Char} {cs : List Char}

theorem IsRun.zero_append (n : Nat) {ds : List Char} (h : IsRun ds) :
    IsRun (List.replicate n '0' ++ ds) where
  ne_nil := by simp [h.ne_nil]
  digit := by
    intro d hd
    rcases List.mem_append.mp hd with hd | hd
    · rw [List.eq_of_mem_replicate hd]
      decide
    · exact h.digit d hd

theorem wellFormed_fraction {ds : List Char} (hwhole : IsRun whole)
    (hzero : ∀ cs, whole = '0' :: cs → cs = []) (hds : IsRun ds) :
    WellFormed ⟨false, whole, some ds, none⟩ where
  whole := hwhole
  zero := hzero
  fraction := by
    rintro _ ⟨⟩
    exact hds
  exponent := nofun

/-- A whole number, with a fraction of one zero or without. -/
theorem wellFormed_whole (hwhole : IsRun whole) (hzero : ∀ cs, whole = '0' :: cs → cs = [])
    (keeps : Bool) : WellFormed ⟨false, whole, if keeps then some ['0'] else none, none⟩ := by
  cases keeps with
  | false => exact ⟨hwhole, hzero, nofun, nofun⟩
  | true => exact wellFormed_fraction hwhole hzero isRun_zero

theorem body_whole (whole : List Char) (keeps : Bool) :
    whole ++ (if keeps then ['.', '0'] else []) =
      body ⟨false, whole, if keeps then some ['0'] else none, none⟩ := by
  cases keeps <;> simp [body, fractionText, exponentText]

theorem exists_body_zero (l : Decimal.Layout) :
    ∃ n : Numeral, n.WellFormed ∧ n.negative = false ∧
      '0' :: (if l.keepsFraction then ['.', '0'] else []) = n.body := by
  refine ⟨_, wellFormed_whole isRun_zero ?_ l.keepsFraction, rfl, body_whole ['0'] _⟩
  rintro _ ⟨⟩
  rfl

theorem exists_body_positionally (l : Decimal.Layout) (hc : c ≠ '0')
    (h : ∀ d ∈ c :: cs, isDigit d) (e : Int) :
    ∃ n : Numeral, n.WellFormed ∧ n.negative = false ∧ l.positionally (c :: cs) e = n.body := by
  have hzero : ∀ tail ds, c :: tail = '0' :: ds → ds = [] :=
    fun _ _ heq => absurd (List.cons.inj heq).1 hc
  unfold Decimal.Layout.positionally
  dsimp only
  split
  · -- below one: zeros stand between the point and the digits
    have hrun : IsRun (c :: cs) := ⟨by simp, h⟩
    refine ⟨_, wellFormed_fraction isRun_zero ?_ (hrun.zero_append (-e - 1).toNat), rfl, ?_⟩
    · rintro _ ⟨⟩
      rfl
    · simp [body, fractionText, exponentText]
  · split
    · -- a whole number: zeros stand behind the digits
      have hzeros : ∀ d ∈ List.replicate (e.toNat + 1 - (c :: cs).length) '0', isDigit d := by
        intro d hd
        rw [List.eq_of_mem_replicate hd]
        decide
      exact ⟨_, wellFormed_whole (IsRun.cons_append h hzeros) (hzero _) l.keepsFraction, rfl,
        body_whole _ _⟩
    · -- the point stands among the digits
      have hfront : IsRun ((c :: cs).take (e.toNat + 1)) :=
        ⟨by simp, fun d hd => h d (List.mem_of_mem_take hd)⟩
      have hback : IsRun ((c :: cs).drop (e.toNat + 1)) := by
        refine ⟨?_, fun d hd => h d (List.mem_of_mem_drop hd)⟩
        rw [Ne, List.drop_eq_nil_iff]
        assumption
      refine ⟨_, wellFormed_fraction hfront (hzero _) hback, rfl, ?_⟩
      simp [body, fractionText, exponentText]

theorem exists_body_scientific {l : Decimal.Layout} (hplus : l.plusSign = true)
    (h : ∀ d ∈ c :: cs, isDigit d) (e : Int) :
    ∃ n : Numeral, n.WellFormed ∧ n.negative = false ∧ l.scientific (c :: cs) e = n.body := by
  refine ⟨⟨false, [c], if cs = [] then none else some cs,
    some (decide (e < 0), digits e.natAbs)⟩, ?_, rfl, ?_⟩
  · constructor
    · exact ⟨by simp, fun d hd => h d (List.mem_cons.mpr (.inl (List.mem_singleton.mp hd)))⟩
    · intro ds hds
      exact (List.cons.inj hds).2.symm
    · intro ds hds
      split at hds
      · cases hds
      · cases hds
        exact ⟨‹_›, fun d hd => h d (List.mem_cons_of_mem _ hd)⟩
    · rintro _ ⟨⟩
      exact isRun_digits _
  · have hexponent : (if 0 ≤ e && l.plusSign then ['+'] else []) ++ signedDigits e =
        (if decide (e < 0) then '-' else '+') :: digits e.natAbs := by
      by_cases he : e < 0
      · simp [signedDigits, he, Int.not_le.mpr he]
      · simp [signedDigits, he, Int.not_lt.mp he, hplus]
    unfold Decimal.Layout.scientific
    rw [hexponent]
    cases cs with
    | nil => simp [body, fractionText, exponentText]
    | cons d ds => simp [body, fractionText, exponentText]

/-- The sign goes in front of the rest. -/
theorem exists_text_signed {digits : List Char} (p : Prop) [Decidable p]
    (h : ∃ n : Numeral, n.WellFormed ∧ n.negative = false ∧ digits = n.body) :
    ∃ n : Numeral, n.WellFormed ∧ (if p then digits else '-' :: digits) = n.text := by
  obtain ⟨n, hn, hpositive, rfl⟩ := h
  split
  · exact ⟨n, hn, by simp [text, hpositive]⟩
  · exact ⟨{ n with negative := true }, ⟨hn.whole, hn.zero, hn.fraction, hn.exponent⟩, rfl⟩

/-- A double has a text that a reader finds whole. -/
theorem exists_text_write {l : Decimal.Layout} (hplus : l.plusSign = true) (x : Float) :
    ∃ n : Numeral, n.WellFormed ∧ l.write x = n.text := by
  unfold Decimal.Layout.write
  apply exists_text_signed
  cases hzero : x == 0.0 with
  | true => exact exists_body_zero l
  | false =>
    obtain ⟨c, cs, hcs, hc, hdigits⟩ := Binary.shortest_eq_cons (mantissa_pos hzero) l.tie
    simp only [Bool.false_eq_true, if_false, hcs]
    split
    · exact exists_body_positionally l hc hdigits _
    · exact exists_body_scientific hplus hdigits _

/-! ## Every number -/

theorem wellFormed_digits (negative : Bool) (n : Nat) :
    WellFormed ⟨negative, digits n, none, none⟩ := by
  constructor
  · exact isRun_digits n
  · intro cs hcs
    rcases Nat.eq_zero_or_pos n with rfl | hpos
    · rw [show digits 0 = ['0'] from digits_of_lt (by decide)] at hcs
      exact (List.cons.inj hcs).2.symm
    · obtain ⟨d, ds, hds, hd⟩ := digits_eq_cons hpos
      rw [show digits n = d :: ds from hds] at hcs
      exact absurd (List.cons.inj hcs).1 hd
  · rintro _ ⟨⟩
  · rintro _ ⟨⟩

theorem text_digits (n : Nat) : text ⟨false, digits n, none, none⟩ = digits n := by
  simp [text, body, fractionText, exponentText]

theorem exists_text_signedDigits (n : Int) :
    ∃ m : Numeral, m.WellFormed ∧ signedDigits n = m.text := by
  refine ⟨⟨decide (n < 0), digits n.natAbs, none, none⟩, wellFormed_digits _ _, ?_⟩
  by_cases hn : n < 0
  · simp [signedDigits, text, body, fractionText, exponentText, hn]
  · simp [signedDigits, text, body, fractionText, exponentText, hn]

/-- A number is written as null or as a numeral. -/
theorem exists_text_print (n : Number) :
    n.print = ['n', 'u', 'l', 'l'] ∨ ∃ m : Numeral, m.WellFormed ∧ n.print = m.text := by
  cases n with
  | natural n => exact .inr ⟨_, wellFormed_digits false n.toNat, (text_digits n.toNat).symm⟩
  | negative n => exact .inr (exists_text_signedDigits n.toInt)
  | double x =>
    show (if x.isFinite then doubleLayout.write x else _) = _ ∨
      ∃ m : Numeral, m.WellFormed ∧ (if x.isFinite then doubleLayout.write x else _) = m.text
    split
    · exact .inr (exists_text_write rfl x)
    · exact .inl rfl

theorem toNat_le_wordBound (n : UInt64) : n.toNat ≤ wordBound := by
  have hlt := n.toNat_lt
  have hword : wordBound = 2 ^ 64 - 1 := by decide
  omega

/-- A natural number is read from its digits as itself. -/
theorem value_digits (n : UInt64) :
    Numeral.value ⟨false, digits n.toNat, none, none⟩ = .ok (.natural n) := by
  simp [Numeral.value, ofDigits_digits, toNat_le_wordBound]

end Gateway.Json
