import Gateway.Proofs.Entries
import Gateway.Proofs.Query.Engine
import Gateway.Proofs.Query.Recognized

/-!
# What compiled filters mean

A filter has a meaning of its own over the notions of an engine, group by group and
condition by condition (`Filter.Selects`). Over every engine the compiled filter has the
same: collapsing a conjunction or a disjunction of one, leaving out what is not recognized
and adding the search beside the rest changes nothing.

Attributes must not look like operators of the engine. An attribute `$text` would be
replaced by the search, and one such as `$where` be taken for an operator.
-/

namespace Gateway

/-! ## The meaning of a filter -/

section Meaning

variable {δ : Type} (e : Engine δ) (x : δ)

/-- Equality with a value: one of the values of a list, an element that matches a document,
or the very value. -/
def Engine.Agrees (a : String) : Bson → Prop
  | .array vs => ∃ v ∈ vs, e.IsEqual x a v
  | .document d => e.HasElement x a d
  | v => e.IsEqual x a v

/-- A recognized condition is true of a stored document. -/
def Condition.Holds (c : Condition) : Prop :=
  match c.operator with
  | .equal => e.Agrees x c.path c.value
  | .notEqual => ¬ e.Agrees x c.path c.value
  | .greater => e.Compares .gt x c.path c.value
  | .greaterOrEqual => e.Compares .gte x c.path c.value
  | .less => e.Compares .lt x c.path c.value
  | .lessOrEqual => e.Compares .lte x c.path c.value
  | .unrecognized => False

/-- Every recognized condition of a group is true. -/
def Group.Selects (g : Group) : Prop := ∀ c ∈ g, c.operator ≠ .unrecognized → c.Holds e x

/-- Some group selects, or there is none. -/
def Filter.Selects (f : Filter) : Prop := f = [] ∨ ∃ g ∈ f, g.Selects e x

end Meaning

/-! ## Conditions -/

variable {δ : Type} {e : Engine δ} {x : δ}

theorem Engine.agrees_scalar {a : String} {v : Bson} (h : v.kind = .scalar) :
    e.Agrees x a v ↔ e.IsEqual x a v := by
  cases v with
  | array items => simp at h
  | document entries => simp at h
  | _ => exact Iff.rfl

theorem Condition.Becomes.matches_iff {c : Condition} {d : Document} (hd : c.Becomes d)
    (hpath : IsAttribute c.path) : e.Matches x d ↔ c.Holds e x := by
  obtain ⟨path, operator, value⟩ := c
  obtain ⟨test, hasks, rfl⟩ := hd
  have hentry : e.Matches x [(path, test)] ↔ e.Meets x path test := by
    rw [e.matches_iff, List.forall_mem_singleton]
  rw [hentry]
  cases hasks with
  | among items => exact e.meets_in hpath
  | element entries => exact e.meets_elemMatch hpath
  | bare h =>
    refine (e.meets_bare hpath ?_).trans (Engine.agrees_scalar h).symm
    simp [h]
  | notAmong items => exact e.meets_nin hpath
  | notElement entries =>
    exact (e.meets_not hpath).trans (not_congr (e.meets_elemMatch hpath))
  | other h => exact (e.meets_ne hpath).trans (not_congr (Engine.agrees_scalar h).symm)
  | greater => exact e.meets_compare (k := .gt) hpath
  | greaterOrEqual => exact e.meets_compare (k := .gte) hpath
  | less => exact e.meets_compare (k := .lt) hpath
  | lessOrEqual => exact e.meets_compare (k := .lte) hpath

/-! ## Groups and filters -/

/-- What a group asks for is asked by its recognized conditions. -/
theorem Group.selects_iff {g : Group} : g.Selects e x ↔ ∀ c ∈ g.recognized, c.Holds e x := by
  constructor
  · intro h c hc
    obtain ⟨hmem, hrec⟩ := List.mem_filter.mp hc
    exact h c hmem (by simpa [Condition.isRecognized] using hrec)
  · intro h c hmem hop
    exact h c (List.mem_filter.mpr ⟨hmem, by simpa [Condition.isRecognized] using hop⟩)

theorem Condition.forall_matches_iff {g : Group} {ds : List Document}
    (hd : List.Forall₂ Becomes g ds) (hpath : ∀ c ∈ g, IsAttribute c.path) :
    (∀ d ∈ ds, e.Matches x d) ↔ ∀ c ∈ g, c.Holds e x := by
  induction hd with
  | nil => simp
  | cons hd _ ih =>
      obtain ⟨hc, hg⟩ := List.forall_mem_cons.mp hpath
      rw [List.forall_mem_cons, List.forall_mem_cons, hd.matches_iff hc, ih hg]

theorem Engine.matches_entry {key : String} {value : Bson} :
    e.Matches x [(key, value)] ↔ e.Meets x key value := by
  rw [e.matches_iff, List.forall_mem_singleton]

theorem Engine.matches_nil : e.Matches x [] :=
  e.matches_iff.mpr fun _ h => absurd h List.not_mem_nil

theorem Group.matches_native_iff {g : Group} (hpath : ∀ c ∈ g, IsAttribute c.path) :
    e.Matches x g.native ↔ g.Selects e x := by
  have hpath : ∀ c ∈ g.recognized, IsAttribute c.path :=
    fun c hc => hpath c (List.mem_of_mem_filter hc)
  rw [selects_iff]
  rcases g.native_cases with ⟨hg, h⟩ | ⟨c, test, hg, ht, h⟩ | ⟨ds, -, hds, h⟩
  -- no condition is left, and the conjunction is over the document that matches everything
  · have hand : e.Meets x "$and" (.array ([[]].map .document)) ↔
        ∀ d ∈ ([[]] : List Document), e.Matches x d := e.meets_and
    rw [h, hg, Engine.matches_entry]
    exact iff_of_true (hand.mpr (by simpa using Engine.matches_nil)) (by simp)
  · have hc : c ∈ g.recognized := by simp [hg]
    have hd : c.Becomes g.native := ⟨test, ht, h⟩
    rw [hd.matches_iff (hpath c hc), hg, List.forall_mem_singleton]
  · rw [h, Engine.matches_entry, e.meets_and]
    exact Condition.forall_matches_iff hds hpath

theorem Filter.matches_native_iff {f : Filter} (hpath : ∀ g ∈ f, ∀ c ∈ g, IsAttribute c.path) :
    e.Matches x f.native ↔ f.Selects e x := by
  have hgroup {g : Group} (hg : g ∈ f) := Group.matches_native_iff (e := e) (x := x) (hpath g hg)
  match f with
  | [] => exact iff_of_true Engine.matches_nil (.inl rfl)
  | [g] =>
    have hnative : native [g] = g.native := rfl
    rw [hnative, hgroup List.mem_cons_self]
    simp [Selects]
  | g :: g' :: gs =>
    have hnative : native (g :: g' :: gs) =
        [("$or", .array (((g :: g' :: gs).map Group.native).map .document))] := rfl
    rw [hnative, Engine.matches_entry, e.meets_or]
    constructor
    · rintro ⟨d, hd, hmatch⟩
      obtain ⟨k, hk, rfl⟩ := List.mem_map.mp hd
      exact .inr ⟨k, hk, (hgroup hk).mp hmatch⟩
    · rintro (hnil | ⟨k, hk, hsel⟩)
      · simp at hnil
      · exact ⟨k.native, List.mem_map_of_mem hk, (hgroup hk).mpr hsel⟩

/-! ## The search -/

theorem IsAttribute.ne_text {a : String} (h : IsAttribute a) : a ≠ "$text" := by
  rintro rfl
  exact h rfl

theorem Group.notMem_keys_native {g : Group} (hpath : ∀ c ∈ g, IsAttribute c.path) :
    "$text" ∉ Entries.keys g.native := by
  rcases g.native_cases with ⟨-, h⟩ | ⟨c, test, hg, -, h⟩ | ⟨ds, -, -, h⟩
  · simp [h, Entries.keys]
  · have hc : c ∈ g.recognized := by simp [hg]
    have hne := (hpath c (List.mem_of_mem_filter hc)).ne_text
    simpa [h, Entries.keys] using hne.symm
  · simp [h, Entries.keys]

theorem Filter.notMem_keys_native {f : Filter} (hpath : ∀ g ∈ f, ∀ c ∈ g, IsAttribute c.path) :
    "$text" ∉ Entries.keys f.native := by
  match f with
  | [] => simp [native, Entries.keys]
  | [g] => exact Group.notMem_keys_native (hpath g List.mem_cons_self)
  | g :: g' :: gs => simp [native, Entries.keys]

/-- A search that replaces nothing is asked for beside the filter. -/
theorem Engine.matches_searchEntry_iff {d : Document} (hd : "$text" ∉ Entries.keys d)
    (search : Option String) :
    e.Matches x (searchEntry d search) ↔
      (∀ s ∈ search, s = "" ∨ e.PassesSearch x s) ∧ e.Matches x d := by
  rcases search with _ | s
  · simp [searchEntry]
  · by_cases hs : s = ""
    · have hempty : searchEntry d (some "") = d := rfl
      simp [hs, hempty]
    · have hentry : searchEntry d (some s) =
          d ++ [("$text", .document [("$search", .string s)])] := by
        simp [searchEntry, Option.filter, hs, Entries.insert_of_notMem hd]
      rw [hentry, e.matches_iff, List.forall_mem_append, List.forall_mem_singleton, e.meets_text,
        ← e.matches_iff, and_comm]
      simp [hs]

/-- **Compiling keeps the meaning.** Over every engine that knows the forms of a compiled
filter, the filter of a compiled request matches a stored document exactly when the document
passes the search, if there is one, and is selected by the filter of the request, if there is
one. -/
theorem compiled_matches_iff (e : Engine δ) (filter : Option Filter)
    (attributes : Option (List String)) (limit page : Option UInt64)
    (order : Option (List SortKey)) (search : Option String)
    (hpath : ∀ f ∈ filter, ∀ g ∈ f, ∀ c ∈ g, IsAttribute c.path) (x : δ) :
    e.Matches x (NativeQuery.of filter attributes limit page order search).filter ↔
      (∀ s ∈ search, s = "" ∨ e.PassesSearch x s) ∧ ∀ f ∈ filter, f.Selects e x := by
  rcases filter with _ | f
  · have hkeys : "$text" ∉ Entries.keys ([] : Document) := by simp [Entries.keys]
    simp only [NativeQuery.of, Option.map_none, Option.getD_none]
    rw [Engine.matches_searchEntry_iff hkeys]
    simp [Engine.matches_nil]
  · have hpath := hpath f rfl
    simp only [NativeQuery.of, Option.map_some, Option.getD_some]
    rw [Engine.matches_searchEntry_iff (Filter.notMem_keys_native hpath),
      Filter.matches_native_iff hpath]
    simp

/-- An engine that compares values as they are, finds a text by itself, and has neither
elements nor an order. -/
def plainRelations : Relations Document where
  isEqual x a v := ∃ w, Entries.get? a x = some w ∧ w.sameValue v = true
  hasElement _ _ _ := False
  compares _ _ _ _ := False
  passesSearch x s := ∃ a, Entries.get? a x = some (.string s)

/-- Boots or shoes, whatever their colour is like; or what is cheap and no sock. -/
def footwear : Filter :=
  [[⟨"name", .equal, .array [.string "boot", .string "shoe"]⟩, ⟨"colour", .unrecognized, .null⟩],
    [⟨"price", .less, .int32 10⟩, ⟨"name", .notEqual, .string "sock"⟩]]

theorem footwear_isAttribute :
    ∀ f ∈ some footwear, ∀ g ∈ f, ∀ c ∈ g, IsAttribute c.path := by
  simp [footwear, IsAttribute]

/-- A boot is found by its name, and a sock is not. -/
theorem compiled_matches_footwear :
    plainRelations.engine.Matches [("name", .string "boot")]
        (NativeQuery.of (some footwear) none none none none (some "boot")).filter ∧
      ¬ plainRelations.engine.Matches [("name", .string "sock")]
        (NativeQuery.of (some footwear) none none none none (some "sock")).filter := by
  have hboot := compiled_matches_iff plainRelations.engine (some footwear) none none none none
    (some "boot") footwear_isAttribute [("name", .string "boot")]
  have hsock := compiled_matches_iff plainRelations.engine (some footwear) none none none none
    (some "sock") footwear_isAttribute [("name", .string "sock")]
  refine ⟨hboot.mpr ⟨?_, ?_⟩, fun h => ?_⟩
  · rintro s ⟨rfl⟩
    exact .inr ⟨"name", rfl⟩
  · rintro f ⟨rfl⟩
    refine .inr ⟨_, List.mem_cons_self, Group.selects_iff.mpr ?_⟩
    rintro c ⟨⟩
    · exact ⟨.string "boot", List.mem_cons_self, .string "boot", rfl, by simp [Bson.sameValue]⟩
    · contradiction
  · obtain ⟨-, hf⟩ := hsock.mp h
    rcases hf footwear rfl with hnil | ⟨g, hg, hsel⟩
    · simp [footwear] at hnil
    · rw [footwear, List.mem_cons, List.mem_singleton] at hg
      rcases hg with rfl | rfl
      · obtain ⟨v, hv, w, hw, hsame⟩ := hsel _ List.mem_cons_self (by simp)
        obtain rfl : .string "sock" = w := Option.some.inj hw
        rw [List.mem_cons, List.mem_singleton] at hv
        rcases hv with rfl | rfl <;> simp [Bson.sameValue] at hsame
      · exact hsel _ List.mem_cons_self (by simp)

end Gateway
