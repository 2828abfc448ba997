import Gateway.Proofs.Json.Numeral
import Gateway.Proofs.Json.Strings

/-!
# What is written is laid out again

The outline of a written value has its form (`Json.outline`): lists and objects are closed,
strings and keys are themselves, and only a number is looked at anew, since a double is laid
out by the digits that were written for it. The text of a value in front of whatever may
follow it is laid out as this outline and is consumed whole (`Scans`, `scans_print`), so a
text that is the value and nothing else has no flaw and nothing behind it (`ofText_render`).
-/

namespace Gateway.Json

open Gateway.Decimal (isDigit)

/-! ## The outline of a written value -/

/-- What the text of a number is laid out as. -/
def Number.outline (n : Number) : Outline := (scanValue 1 n.print).1

mutual

/-- What the text of a value is laid out as. -/
def outline : Json → Outline
  | .null => .null
  | .bool b => .bool b
  | .number n => n.outline
  | .string s => .string s
  | .array items => .array (outlineItems items) .closed
  | .object members => .object (outlineMembers members) .closed

def outlineItems : List Json → List Outline
  | [] => []
  | v :: vs => outline v :: outlineItems vs

def outlineMembers : List (String × Json) → List (Key × Outline)
  | [] => []
  | (k, v) :: ms => (.ok k, outline v) :: outlineMembers ms

end

/-- A text is laid out as `o` and consumed, whatever may follow it. -/
def Scans (cs : List Char) (o : Outline) : Prop :=
  ∀ fuel rest, 2 * cs.length ≤ fuel → Stops rest → scanValue fuel (cs ++ rest) = (o, some rest)

/-! ## How texts begin -/

/-- A text begins with a character of a value: no blank and no closing bracket. -/
def Opens (cs : List Char) : Prop :=
  ∃ c tail, cs = c :: tail ∧ isSpace c = false ∧ c ≠ ']'

theorem skipSpace_cons {c : Char} (h : isSpace c = false) (cs : List Char) :
    skipSpace (c :: cs) = c :: cs := List.dropWhile_cons_of_neg (by simp [h])

theorem Opens.skipSpace {cs : List Char} (h : Opens cs) (rest : List Char) :
    skipSpace (cs ++ rest) = cs ++ rest := by
  obtain ⟨c, tail, rfl, hspace, _⟩ := h
  exact skipSpace_cons hspace _

theorem opens_of_isDigit {c : Char} (h : isDigit c) (cs : List Char) : Opens (c :: cs) := by
  refine ⟨c, cs, rfl, ?_, ?_⟩
  · cases hspace : isSpace c with
    | false => rfl
    | true =>
      simp only [isSpace, Bool.or_eq_true, decide_eq_true_eq] at hspace
      rcases hspace with ((rfl | rfl) | rfl) | rfl <;> exact absurd h (by decide)
  · rintro rfl
    exact absurd h (by decide)

theorem Numeral.WellFormed.text_eq_cons {n : Numeral} (h : n.WellFormed) :
    ∃ c tail, n.text = c :: tail ∧ (c = '-' ∨ isDigit c) := by
  unfold Numeral.text
  split
  · exact ⟨'-', n.body, rfl, .inl rfl⟩
  · unfold Numeral.body
    rcases hwhole : n.whole with _ | ⟨d, ds⟩
    · exact absurd hwhole h.whole.ne_nil
    · exact ⟨d, _, rfl, .inr (h.whole.digit d (hwhole ▸ List.mem_cons_self))⟩

theorem opens_number (n : Number) : Opens n.print := by
  rcases exists_text_print n with hnull | ⟨m, hm, htext⟩
  · rw [hnull]
    exact ⟨'n', _, rfl, by decide, by decide⟩
  · obtain ⟨c, tail, hcons, rfl | hdigit⟩ := hm.text_eq_cons
    · rw [htext, hcons]
      exact ⟨'-', tail, rfl, by decide, by decide⟩
    · rw [htext, hcons]
      exact opens_of_isDigit hdigit tail

theorem opens_print (v : Json) : Opens v.print := by
  cases v with
  | null => exact ⟨'n', _, rfl, by decide, by decide⟩
  | bool b => cases b <;> exact ⟨_, _, rfl, by decide, by decide⟩
  | number n => exact opens_number n
  | string s => exact ⟨'"', _, rfl, by decide, by decide⟩
  | array items => cases items <;> exact ⟨'[', _, rfl, by decide, by decide⟩
  | object members =>
    rcases members with _ | ⟨⟨k, v⟩, ms⟩ <;> exact ⟨'{', _, rfl, by decide, by decide⟩

/-! ## One step of each scanner -/

variable {fuel : Nat} {cs rest next : List Char} {v : Outline}

theorem scanValue_array (h : Opens cs) (fuel : Nat) (rest : List Char) :
    scanValue (fuel + 1) ('[' :: (cs ++ rest)) =
      (.array (scanItems fuel (cs ++ rest)).1 (scanItems fuel (cs ++ rest)).2.1,
        (scanItems fuel (cs ++ rest)).2.2) := by
  have hskip := h.skipSpace rest
  obtain ⟨c, tail, rfl, hspace, hclose⟩ := h
  rw [List.cons_append] at hskip ⊢
  rw [scanValue, skipSpace_cons (by decide)]
  simp [hskip, hclose]

theorem scanItems_last (h : scanValue fuel cs = (v, some (']' :: rest))) :
    scanItems (fuel + 1) cs = ([v], .closed, some rest) := by
  rw [scanItems, h]
  rfl

theorem scanItems_comma (h : scanValue fuel cs = (v, some (',' :: (next ++ rest))))
    (hnext : Opens next) :
    scanItems (fuel + 1) cs =
      (v :: (scanItems fuel (next ++ rest)).1, (scanItems fuel (next ++ rest)).2.1,
        (scanItems fuel (next ++ rest)).2.2) := by
  have hskip := hnext.skipSpace rest
  obtain ⟨c, tail, rfl, hspace, hclose⟩ := hnext
  rw [List.cons_append] at hskip h ⊢
  have hcomma : skipSpace (',' :: c :: (tail ++ rest)) = ',' :: c :: (tail ++ rest) :=
    skipSpace_cons (by decide) _
  rw [scanItems, h]
  simp [hcomma, hskip, hclose]

theorem opens_printString (s : String) : Opens (printString s) :=
  ⟨'"', _, rfl, by decide, by decide⟩

theorem scanValue_object (k : String) (fuel : Nat) (rest : List Char) :
    scanValue (fuel + 1) ('{' :: (printString k ++ rest)) =
      (.object (scanMembers fuel (printString k ++ rest)).1
        (scanMembers fuel (printString k ++ rest)).2.1,
        (scanMembers fuel (printString k ++ rest)).2.2) := by
  rw [scanValue]
  rfl

theorem printString_append (k : String) (cs : List Char) :
    printString k ++ cs = '"' :: (k.toList.flatMap escapeChar ++ '"' :: cs) := by
  simp [printString]

theorem scanMembers_last {k : String} (h : scanValue fuel cs = (v, some ('}' :: rest))) :
    scanMembers (fuel + 1) (printString k ++ ':' :: cs) = ([(.ok k, v)], .closed, some rest) := by
  have hcolon : skipSpace (':' :: cs) = ':' :: cs := skipSpace_cons (by decide) _
  rw [printString_append, scanMembers]
  simp only [scanKey_escaped, hcolon, h]
  rfl

theorem scanMembers_comma {k l : String}
    (h : scanValue fuel cs = (v, some (',' :: (printString l ++ rest)))) :
    scanMembers (fuel + 1) (printString k ++ ':' :: cs) =
      ((.ok k, v) :: (scanMembers fuel (printString l ++ rest)).1,
        (scanMembers fuel (printString l ++ rest)).2.1,
        (scanMembers fuel (printString l ++ rest)).2.2) := by
  have hcolon : skipSpace (':' :: cs) = ':' :: cs := skipSpace_cons (by decide) _
  rw [printString_append k, scanMembers]
  simp only [scanKey_escaped, hcolon, h]
  rfl

/-! ## Every value is consumed -/

/-- A text that opens a value leaves a step for it. -/
theorem scans_of_succ {o : Outline} (hopens : Opens cs)
    (h : ∀ fuel rest, 2 * cs.length ≤ fuel + 1 → Stops rest →
      scanValue (fuel + 1) (cs ++ rest) = (o, some rest)) : Scans cs o := by
  intro fuel rest hfuel hrest
  cases fuel with
  | zero =>
    obtain ⟨c, tail, rfl, _⟩ := hopens
    exact absurd hfuel (by simp)
  | succ fuel => exact h fuel rest hfuel hrest

theorem scans_string (s : String) : Scans (printString s) (.string s) := by
  apply scans_of_succ (opens_printString s)
  intro fuel rest _ _
  rw [printString_append, scanValue, skipSpace_cons (by decide)]
  simp [scanString_escaped]

/-- A numeral is laid out with the number that it stands for. -/
theorem scanValue_text {n : Numeral} (h : n.WellFormed) (fuel : Nat) (hrest : Stops rest) :
    scanValue (fuel + 1) (n.text ++ rest) = (.number n.value, some rest) := by
  have hscan := scanNumeral_text h hrest
  obtain ⟨c, tail, hcons, hc⟩ := h.text_eq_cons
  rw [hcons] at hscan ⊢
  have hspace : skipSpace (c :: tail ++ rest) = c :: tail ++ rest := by
    apply Opens.skipSpace
    rcases hc with rfl | hdigit
    · exact ⟨'-', tail, rfl, by decide, by decide⟩
    · exact opens_of_isDigit hdigit tail
  have hother : c ≠ '[' ∧ c ≠ '{' ∧ c ≠ '"' ∧ c ≠ 'n' ∧ c ≠ 't' ∧ c ≠ 'f' := by
    refine ⟨?_, ?_, ?_, ?_, ?_, ?_⟩ <;> rintro rfl <;> exact absurd hc (by decide)
  obtain ⟨hlist, hobject, hquote, hnull, htrue, hfalse⟩ := hother
  rw [List.cons_append] at hscan hspace ⊢
  rw [scanValue, hspace]
  simp [hc, hscan]

theorem outline_of_text {n : Number} {m : Numeral} (hm : m.WellFormed)
    (htext : n.print = m.text) : n.outline = .number m.value := by
  have halone := scanValue_text hm 0 stops_nil
  rw [List.append_nil] at halone
  rw [Number.outline, htext, halone]

/-- A number is laid out as null or as a number. -/
theorem outline_number_cases (n : Number) :
    n.outline = .null ∨ ∃ value, n.outline = .number value := by
  rcases exists_text_print n with hnull | ⟨m, hm, htext⟩
  · refine .inl ?_
    rw [Number.outline, hnull]
    rfl
  · exact .inr ⟨m.value, outline_of_text hm htext⟩

theorem outline_natural (n : UInt64) : outline (.ofNatural n) = .number (.ok (.natural n)) := by
  have htext : (Number.natural n).print =
      Numeral.text ⟨false, Decimal.digits n.toNat, none, none⟩ := (text_digits n.toNat).symm
  show (Number.natural n).outline = _
  rw [outline_of_text (wellFormed_digits false n.toNat) htext, value_digits]

/-- A number is laid out as in a text of its own, whatever may follow it. -/
theorem scans_number (n : Number) : Scans n.print n.outline := by
  apply scans_of_succ (opens_number n)
  intro fuel rest _ hrest
  rcases exists_text_print n with hnull | ⟨m, hm, htext⟩
  · rw [Number.outline, hnull]
    rfl
  · rw [outline_of_text hm htext, htext, scanValue_text hm fuel hrest]

mutual

/-- The text of a value is laid out as its outline and consumed whole. -/
theorem scans_print : ∀ v : Json, Scans v.print v.outline
  | .null => scans_of_succ (opens_print .null) fun _ _ _ _ => rfl
  | .bool true => scans_of_succ (opens_print (.bool true)) fun _ _ _ _ => rfl
  | .bool false => scans_of_succ (opens_print (.bool false)) fun _ _ _ _ => rfl
  | .number n => scans_number n
  | .string s => scans_string s
  | .array [] => scans_of_succ (opens_print (.array [])) fun _ _ _ _ => rfl
  | .object [] => scans_of_succ (opens_print (.object [])) fun _ _ _ _ => rfl
  | .array (v :: vs) => by
    apply scans_of_succ (opens_print (.array (v :: vs)))
    intro fuel rest hfuel _
    simp only [print, List.length_cons, List.length_append] at hfuel
    have hitems := scanItems_print (scans_print v) vs fuel rest (by omega)
    have htext : print (.array (v :: vs)) ++ rest =
        '[' :: (v.print ++ (printItems vs ++ ']' :: rest)) := by
      simp [print]
    rw [htext, scanValue_array (opens_print v), hitems]
    rfl
  | .object ((k, v) :: ms) => by
    apply scans_of_succ (opens_print (.object ((k, v) :: ms)))
    intro fuel rest hfuel _
    simp only [print, List.length_cons, List.length_append] at hfuel
    have hmembers := scanMembers_print k (scans_print v) ms fuel rest (by omega)
    have htext : print (.object ((k, v) :: ms)) ++ rest =
        '{' :: (printString k ++ (':' :: (v.print ++ (printMembers ms ++ '}' :: rest)))) := by
      simp [print]
    rw [htext, scanValue_object, hmembers]
    rfl

/-- The items of a list from the first on, which is `o`. -/
theorem scanItems_print {cs : List Char} {o : Outline} (h : Scans cs o) :
    ∀ (vs : List Json) (fuel : Nat) (rest : List Char),
      2 * (cs.length + (printItems vs).length) < fuel →
      scanItems fuel (cs ++ (printItems vs ++ ']' :: rest)) =
        (o :: outlineItems vs, .closed, some rest)
  | _, 0, _, hfuel => absurd hfuel (Nat.not_lt_zero _)
  | [], fuel + 1, rest, hfuel => by
    exact scanItems_last (h fuel _ (by omega) (stops_bracket rest))
  | v :: vs, fuel + 1, rest, hfuel => by
    simp only [printItems, List.length_cons, List.length_append] at hfuel
    have hnext := scanItems_print (scans_print v) vs fuel rest (by omega)
    have hvalue := h fuel (',' :: (v.print ++ (printItems vs ++ ']' :: rest))) (by omega)
      (stops_comma _)
    have htext : cs ++ (printItems (v :: vs) ++ ']' :: rest) =
        cs ++ ',' :: (v.print ++ (printItems vs ++ ']' :: rest)) := by
      simp [printItems]
    rw [htext, scanItems_comma hvalue (opens_print v), hnext]
    rfl

/-- The members of an object from the first on, which is `o` under the key `k`. -/
theorem scanMembers_print (k : String) {cs : List Char} {o : Outline} (h : Scans cs o) :
    ∀ (ms : List (String × Json)) (fuel : Nat) (rest : List Char),
      2 * (cs.length + (printMembers ms).length) < fuel →
      scanMembers fuel (printString k ++ (':' :: (cs ++ (printMembers ms ++ '}' :: rest)))) =
        ((.ok k, o) :: outlineMembers ms, .closed, some rest)
  | _, 0, _, hfuel => absurd hfuel (Nat.not_lt_zero _)
  | [], fuel + 1, rest, hfuel => by
    exact scanMembers_last (h fuel _ (by omega) (stops_brace rest))
  | (l, v) :: ms, fuel + 1, rest, hfuel => by
    simp only [printMembers, List.length_cons, List.length_append] at hfuel
    have hnext := scanMembers_print l (scans_print v) ms fuel rest (by omega)
    have hvalue := h fuel
      (',' :: (printString l ++ (':' :: (v.print ++ (printMembers ms ++ '}' :: rest)))))
      (by omega) (stops_comma _)
    have htext : cs ++ (printMembers ((l, v) :: ms) ++ '}' :: rest) =
        cs ++ ',' :: (printString l ++ (':' :: (v.print ++ (printMembers ms ++ '}' :: rest)))) := by
      simp [printMembers]
    rw [htext, scanMembers_comma hvalue, hnext]
    rfl

end

/-! ## Whole texts -/

/-- The text of a value is laid out as its outline, with nothing behind it. -/
theorem ofText_render (v : Json) : Layout.ofText v.render = ⟨v.outline, false⟩ := by
  have hscan := scans_print v (2 * v.print.length + 2) [] (by omega) stops_nil
  rw [List.append_nil] at hscan
  unfold Layout.ofText render
  rw [String.toList_ofList, hscan]
  rfl

end Gateway.Json
