import Gateway.Proofs.Bson.Comparison
import Gateway.Query.Native

/-!
# Recognized conditions

A condition with an operator that is not recognized leaves no trace in the native filter.
What is left of a filter without these conditions says all that the native filter says.
The groups stay in their places, also those that have become empty.

What is asked of an attribute takes one of ten forms, by the operator and the kind of the
value (`Asks`). Proofs about conditions go by these forms.
-/

namespace Gateway

/-- The test that is made of a recognized operator and a value. -/
inductive Asks : Operator → Bson → Bson → Prop
  | among (items : List Bson) :
      Asks .equal (.array items) (.document [("$in", .array items)])
  | element (entries : Document) :
      Asks .equal (.document entries) (.document [("$elemMatch", .document entries)])
  | bare {v : Bson} (h : v.kind = .scalar) : Asks .equal v v
  | notAmong (items : List Bson) :
      Asks .notEqual (.array items) (.document [("$nin", .array items)])
  | notElement (entries : Document) :
      Asks .notEqual (.document entries)
        (.document [("$not", .document [("$elemMatch", .document entries)])])
  | other {v : Bson} (h : v.kind = .scalar) : Asks .notEqual v (.document [("$ne", v)])
  | greater (v : Bson) : Asks .greater v (.document [("$gt", v)])
  | greaterOrEqual (v : Bson) : Asks .greaterOrEqual v (.document [("$gte", v)])
  | less (v : Bson) : Asks .less v (.document [("$lt", v)])
  | lessOrEqual (v : Bson) : Asks .lessOrEqual v (.document [("$lte", v)])

/-- What is asked of an attribute is never a list. -/
theorem Asks.kind_ne {operator : Operator} {v test : Bson} (h : Asks operator v test) :
    ¬ test.kind = .list := by
  cases h <;> simp [*]

theorem Asks.ne_array {operator : Operator} {v test : Bson} (h : Asks operator v test)
    (items : List Bson) : test ≠ .array items := by
  rintro rfl
  exact h.kind_ne rfl

/-- Tests are the same for a comparison when their operators are the same and their values
are the same for a comparison. -/
theorem Asks.sameValue_iff {o p : Operator} {v w t u : Bson} (ht : Asks o v t)
    (hu : Asks p w u) : t.sameValue u = true ↔ o = p ∧ v.sameValue w = true := by
  cases ht <;> cases hu <;> simp [Bson.sameValue_entry, Bson.sameValue_of_kind_ne, *]

namespace Condition

def isRecognized (c : Condition) : Bool := c.operator ≠ .unrecognized

/-- A condition becomes a document of one entry, its attribute with the test. -/
def Becomes (c : Condition) (d : Document) : Prop :=
  ∃ test, Asks c.operator c.value test ∧ d = [(c.path, test)]

theorem native?_of_isRecognized {c : Condition} (h : c.isRecognized = true) :
    ∃ d, c.Becomes d ∧ c.native? = some d := by
  obtain ⟨path, operator, value⟩ := c
  cases operator with
  | equal =>
    cases value
    case array items => exact ⟨_, ⟨_, .among items, rfl⟩, rfl⟩
    case document entries => exact ⟨_, ⟨_, .element entries, rfl⟩, rfl⟩
    all_goals exact ⟨_, ⟨_, .bare rfl, rfl⟩, rfl⟩
  | notEqual =>
    cases value
    case array items => exact ⟨_, ⟨_, .notAmong items, rfl⟩, rfl⟩
    case document entries => exact ⟨_, ⟨_, .notElement entries, rfl⟩, rfl⟩
    all_goals exact ⟨_, ⟨_, .other rfl, rfl⟩, rfl⟩
  | greater => exact ⟨_, ⟨_, .greater value, rfl⟩, rfl⟩
  | greaterOrEqual => exact ⟨_, ⟨_, .greaterOrEqual value, rfl⟩, rfl⟩
  | less => exact ⟨_, ⟨_, .less value, rfl⟩, rfl⟩
  | lessOrEqual => exact ⟨_, ⟨_, .lessOrEqual value, rfl⟩, rfl⟩
  | unrecognized => simp [isRecognized] at h

theorem native?_of_not_isRecognized {c : Condition} (h : c.isRecognized = false) :
    c.native? = none := by
  obtain ⟨path, operator, value⟩ := c
  have hop : operator = .unrecognized := by simpa [isRecognized] using h
  rw [hop]
  rfl

end Condition

/-! ## Groups and filters -/

def Group.recognized (g : Group) : Group := g.filter Condition.isRecognized

def Filter.recognized (f : Filter) : Filter := f.map Group.recognized

theorem Group.recognized_cons (c : Condition) (g : Group) :
    recognized (c :: g) =
      if c.isRecognized then c :: g.recognized else g.recognized := List.filter_cons

/-- The recognized conditions of a group become its documents, one each. -/
theorem Group.becomes (g : Group) :
    List.Forall₂ Condition.Becomes g.recognized (g.filterMap Condition.native?) := by
  induction g with
  | nil => exact .nil
  | cons c g ih =>
      rw [recognized_cons]
      rcases hc : c.isRecognized
      · rw [List.filterMap_cons_none (Condition.native?_of_not_isRecognized hc)]
        exact ih
      · obtain ⟨d, hd, hn⟩ := Condition.native?_of_isRecognized hc
        rw [List.filterMap_cons_some hn]
        exact .cons hd ih

theorem Group.native_recognized (g : Group) : g.recognized.native = g.native := by
  have hfilter : g.recognized.filterMap Condition.native? = g.filterMap Condition.native? := by
    induction g with
    | nil => rfl
    | cons c g ih =>
        rw [recognized_cons]
        rcases hc : c.isRecognized
        · rw [List.filterMap_cons_none (Condition.native?_of_not_isRecognized hc)]
          exact ih
        · obtain ⟨d, -, hn⟩ := Condition.native?_of_isRecognized hc
          rw [if_pos rfl, List.filterMap_cons_some hn, List.filterMap_cons_some hn, ih]
  rw [native, hfilter]
  rfl

/-- The conditions that are not recognized do not matter. -/
theorem Filter.native_recognized (f : Filter) : f.recognized.native = f.native := by
  have hmap : f.recognized.map Group.native = f.map Group.native := by
    rw [recognized, List.map_map]
    exact List.map_congr_left fun g _ => g.native_recognized
  rw [native, hmap]
  rfl

/-- The shapes of a group: no condition is left, or one that stands bare, or a conjunction of
at least two. -/
theorem Group.native_cases (g : Group) :
    (g.recognized = [] ∧ g.native = [("$and", .array [.document []])]) ∨
    (∃ c test, g.recognized = [c] ∧ Asks c.operator c.value test ∧
      g.native = [(c.path, test)]) ∨
    ∃ ds : List Document, 2 ≤ ds.length ∧ List.Forall₂ Condition.Becomes g.recognized ds ∧
      g.native = [("$and", .array (ds.map .document))] := by
  have hall := g.becomes
  rcases hds : g.filterMap Condition.native? with _ | ⟨d, _ | ⟨d', ds⟩⟩
  all_goals rw [hds] at hall
  · rw [List.forall₂_nil_right_iff] at hall
    exact .inl ⟨hall, by rw [native, hds]⟩
  · right; left
    obtain ⟨c, cs, ⟨test, hasks, rfl⟩, hrest, hrec⟩ := List.forall₂_cons_right_iff.mp hall
    rw [List.forall₂_nil_right_iff] at hrest
    exact ⟨c, test, by rw [hrec, hrest], hasks, by rw [native, hds]⟩
  · exact .inr (.inr ⟨_, by simp, hall, by rw [native, hds]⟩)

end Gateway
