import Gateway.Proofs.Bson.Comparison

/-!
# Engines of native filters

The engine that runs native filters is known only by what it makes of the few forms that a
compiled filter has (`Engine`). What it makes of equality, of elements, of order and of a
search is its own matter: whatever these four are, there is an engine with them
(`Relations.engine`).
-/

namespace Gateway

/-- The four comparisons by order. -/
inductive Comparison where
  | gt
  | gte
  | lt
  | lte
deriving DecidableEq

def Comparison.key : Comparison → String
  | .gt => "$gt"
  | .gte => "$gte"
  | .lt => "$lt"
  | .lte => "$lte"

/-- A name that the engine takes for an attribute. -/
def IsAttribute (name : String) : Prop := name.toList.head? ≠ some '$'

/-- An engine over stored documents `δ`, with what is known of its native filters. -/
structure Engine (δ : Type) where
  /-- A stored document matches a native filter. -/
  Matches : δ → Document → Prop
  /-- A stored document meets one entry of a native filter. -/
  Meets : δ → String → Bson → Prop
  IsEqual : δ → String → Bson → Prop
  HasElement : δ → String → Document → Prop
  Compares : Comparison → δ → String → Bson → Prop
  PassesSearch : δ → String → Prop
  matches_iff : ∀ {x d}, Matches x d ↔ ∀ e ∈ d, Meets x e.1 e.2
  meets_and : ∀ {x} {ds : List Document},
    Meets x "$and" (.array (ds.map .document)) ↔ ∀ d ∈ ds, Matches x d
  meets_or : ∀ {x} {ds : List Document},
    Meets x "$or" (.array (ds.map .document)) ↔ ∃ d ∈ ds, Matches x d
  meets_text : ∀ {x s}, Meets x "$text" (.document [("$search", .string s)]) ↔ PassesSearch x s
  meets_bare : ∀ {x a v}, IsAttribute a → ¬ v.kind = .document → (Meets x a v ↔ IsEqual x a v)
  meets_ne : ∀ {x a v}, IsAttribute a → (Meets x a (.document [("$ne", v)]) ↔ ¬ IsEqual x a v)
  meets_in : ∀ {x a vs}, IsAttribute a →
    (Meets x a (.document [("$in", .array vs)]) ↔ ∃ v ∈ vs, IsEqual x a v)
  meets_nin : ∀ {x a vs}, IsAttribute a →
    (Meets x a (.document [("$nin", .array vs)]) ↔ ¬ ∃ v ∈ vs, IsEqual x a v)
  meets_elemMatch : ∀ {x a d}, IsAttribute a →
    (Meets x a (.document [("$elemMatch", .document d)]) ↔ HasElement x a d)
  meets_not : ∀ {x a p}, IsAttribute a →
    (Meets x a (.document [("$not", .document p)]) ↔ ¬ Meets x a (.document p))
  meets_compare : ∀ {x a v} {k : Comparison}, IsAttribute a →
    (Meets x a (.document [(k.key, v)]) ↔ Compares k x a v)

/-! ## An engine for any relations -/

/-- What an engine makes of equality, of elements, of order and of a search. -/
structure Relations (δ : Type) where
  isEqual : δ → String → Bson → Prop
  hasElement : δ → String → Document → Prop
  compares : Comparison → δ → String → Bson → Prop
  passesSearch : δ → String → Prop

namespace Relations

variable {δ : Type} (r : Relations δ) (x : δ)

/-- What is asked of an attribute; a test of an unknown form is never met. -/
def Meets (a : String) : Bson → Prop
  | .document [("$ne", v)] => ¬ r.isEqual x a v
  | .document [("$in", .array vs)] => ∃ v ∈ vs, r.isEqual x a v
  | .document [("$nin", .array vs)] => ¬ ∃ v ∈ vs, r.isEqual x a v
  | .document [("$elemMatch", .document d)] => r.hasElement x a d
  | .document [("$not", .document p)] => ¬ Meets a (.document p)
  | .document [("$gt", v)] => r.compares .gt x a v
  | .document [("$gte", v)] => r.compares .gte x a v
  | .document [("$lt", v)] => r.compares .lt x a v
  | .document [("$lte", v)] => r.compares .lte x a v
  | .document _ => False
  | v => r.isEqual x a v

mutual

def MeetsEntry : String → Bson → Prop
  | "$and", .array items => MeetsAll items
  | "$or", .array items => MeetsAny items
  | "$text", .document [("$search", .string s)] => r.passesSearch x s
  | a, test => r.Meets x a test

def Matches : Document → Prop
  | [] => True
  | (key, value) :: rest => MeetsEntry key value ∧ Matches rest

def MeetsAll : List Bson → Prop
  | [] => True
  | .document d :: items => Matches d ∧ MeetsAll items
  | _ :: _ => False

def MeetsAny : List Bson → Prop
  | [] => False
  | .document d :: items => Matches d ∨ MeetsAny items
  | _ :: items => MeetsAny items

end

variable {r x}

theorem meetsEntry_of_isAttribute {a : String} {test : Bson} (h : IsAttribute a) :
    r.MeetsEntry x a test ↔ r.Meets x a test := by
  unfold MeetsEntry
  split
  · exact absurd rfl h
  · exact absurd rfl h
  · exact absurd rfl h
  · exact Iff.rfl

theorem matches_iff {d : Document} : r.Matches x d ↔ ∀ e ∈ d, r.MeetsEntry x e.1 e.2 := by
  induction d with
  | nil => simp [Matches]
  | cons e d ih => simp [Matches, ih]

theorem meetsAll_map {ds : List Document} :
    r.MeetsAll x (ds.map .document) ↔ ∀ d ∈ ds, r.Matches x d := by
  induction ds with
  | nil => simp [MeetsAll]
  | cons d ds ih => simp [MeetsAll, ih]

theorem meetsAny_map {ds : List Document} :
    r.MeetsAny x (ds.map .document) ↔ ∃ d ∈ ds, r.Matches x d := by
  induction ds with
  | nil => simp [MeetsAny]
  | cons d ds ih => simp [MeetsAny, ih]

theorem meets_bare {a : String} {v : Bson} (h : ¬ v.kind = .document) :
    r.Meets x a v ↔ r.isEqual x a v := by
  cases v with
  | document entries => exact absurd rfl h
  | _ => exact Iff.rfl

theorem meets_compare {a : String} {v : Bson} (k : Comparison) :
    r.Meets x a (.document [(k.key, v)]) ↔ r.compares k x a v := by
  cases k <;> simp [Meets, Comparison.key]

/-- The engine of given relations. -/
def engine (r : Relations δ) : Engine δ where
  Matches := r.Matches
  Meets := r.MeetsEntry
  IsEqual := r.isEqual
  HasElement := r.hasElement
  Compares := r.compares
  PassesSearch := r.passesSearch
  matches_iff := matches_iff
  meets_and := by
    intro x ds
    simp only [MeetsEntry]
    exact meetsAll_map
  meets_or := by
    intro x ds
    simp only [MeetsEntry]
    exact meetsAny_map
  meets_text := by
    intro x s
    simp only [MeetsEntry]
  meets_bare h hv := (meetsEntry_of_isAttribute h).trans (meets_bare hv)
  meets_ne h := (meetsEntry_of_isAttribute h).trans (by simp [Meets])
  meets_in h := (meetsEntry_of_isAttribute h).trans (by simp [Meets])
  meets_nin h := (meetsEntry_of_isAttribute h).trans (by simp [Meets])
  meets_elemMatch h := (meetsEntry_of_isAttribute h).trans (by simp [Meets])
  meets_not h := by
    rw [meetsEntry_of_isAttribute h, meetsEntry_of_isAttribute h]
    simp [Meets]
  meets_compare h := (meetsEntry_of_isAttribute h).trans (meets_compare _)

end Relations

end Gateway
