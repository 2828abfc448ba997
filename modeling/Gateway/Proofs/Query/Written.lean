import Gateway.Proofs.Bson.Room
import Gateway.Proofs.Json.ReadBack
import Gateway.Query.Writer

/-!
# Requests are read as they were written

Every field of a condition, of a key of an order and of a request is written under its name and
read back under it, be it absent, empty or anything else. What becomes of a value of a condition
is a matter of the value alone: whatever relation `same` its own text keeps, the request around
it keeps (`readsAs_request`).
-/

namespace Gateway

open Gateway.Json

/-! ## What has to agree -/

/-- A condition on the same path by the same operator, with a value that is alike. -/
structure Condition.AgreesUpTo (same : Bson → Bson → Prop) (c c' : Condition) : Prop where
  path : c'.path = c.path
  operator : c'.operator = c.operator
  value : same c.value c'.value

/-- A filter of the same groups in the same order, condition by condition alike. -/
def Filter.AgreesUpTo (same : Bson → Bson → Prop) : Filter → Filter → Prop :=
  List.Forall₂ (List.Forall₂ (Condition.AgreesUpTo same))

/-- A request that agrees in every field, with a filter that is alike. -/
structure Request.AgreesUpTo (same : Bson → Bson → Prop) (r r' : Request) : Prop where
  filter : Option.Rel (Filter.AgreesUpTo same) r.filter r'.filter
  rest : { r' with filter := none } = { r with filter := none }

variable {same : Bson → Bson → Prop} {n : Nat}

theorem Condition.AgreesUpTo.eq {c c' : Condition} (h : c.AgreesUpTo (· = ·) c') : c = c' := by
  obtain ⟨hpath, hoperator, hvalue⟩ := h
  cases c
  cases c'
  cases hpath
  cases hoperator
  cases hvalue
  rfl

/-! ## Conditions -/

theorem Operator.ofName_name (o : Operator) : ofName o.name = o := by cases o <;> rfl

theorem readsAs_condition {c : Condition}
    (h : ReadsAs Bson.read n (same c.value) c.value.toJson) :
    ReadsAs Condition.read (n + 1) (c.AgreesUpTo same) c.toJson := by
  obtain ⟨⟨a, ha, hgood⟩, ⟨w, b, hw, hb, hgood'⟩⟩ := h
  have hoperator := Operator.ofName_name c.operator
  apply readsAs_record
  · refine ⟨⟨some c.path, some c.operator, some a⟩, ⟨c.path, c.operator, a⟩, ?_, rfl, rfl, rfl,
      hgood⟩
    simp [Condition.shape, Shape.takeMembers, outlineMembers, outline, Outline.readString,
      Operator.read, Outline.readChoice, Except.map, hoperator, ha]
  · refine ⟨[("attribute", .string c.path), ("operator", .string c.operator.name),
        ("value", w)],
      ⟨some c.path, some c.operator, some b⟩, ⟨c.path, c.operator, b⟩, ?_, ?_, rfl, rfl, rfl,
      hgood'⟩
    · simp [outlineMembers, Outline.readMembers, outline, Outline.readJson, hw]
    · simp only [Entries.sorted, Entries.insertSorted, List.foldl_cons, List.foldl_nil,
        String.reduceEq, String.reduceLT, if_false]
      simp [Condition.shape, Shape.takeMembers, Outline.ofMembers, Outline.ofJson,
        Outline.readString, Operator.read, Outline.readChoice, Except.map, hoperator, hb]

/-! ## Orders -/

theorem Direction.ofName_name (d : Direction) : ofName (some d.name) = d := by cases d <;> rfl

theorem readsAs_sortKey (n : Nat) (k : SortKey) :
    ReadsAs SortKey.read (n + 1) (· = k) k.toJson := by
  have hdirection : Direction.read (.string k.direction.name) = .ok k.direction := by
    show Except.ok (Direction.ofName (some k.direction.name)) = _
    rw [Direction.ofName_name]
  apply readsAs_record
  · refine ⟨⟨some k.path, some k.direction⟩, k, ?_, rfl, rfl⟩
    simp [SortKey.shape, Shape.takeMembers, outlineMembers, outline, Outline.readString,
      Except.map, hdirection]
  · refine ⟨[("attribute", .string k.path), ("direction", .string k.direction.name)],
      ⟨some k.path, some k.direction⟩, k, rfl, ?_, rfl, rfl⟩
    simp only [Entries.sorted, Entries.insertSorted, List.foldl_cons, List.foldl_nil,
      String.reduceEq, String.reduceLT, if_false]
    simp [SortKey.shape, Shape.takeMembers, Outline.ofMembers, Outline.ofJson,
      Outline.readString, Except.map, hdirection]

/-! ## Filters -/

theorem readsAs_filter {f : Filter}
    (h : ∀ g ∈ f, ∀ c ∈ g, ReadsAs Bson.read n (same c.value) c.value.toJson) :
    ReadsAs Filter.read (n + 3) (Filter.AgreesUpTo same f) (Filter.toJson f) := by
  apply readsAs_list
  intro g hg
  apply readsAs_list
  intro c hc
  exact readsAs_condition (h g hg c hc)

/-! ## Requests -/

theorem readsAs_request {r : Request}
    (h : ∀ f ∈ r.filter, ∀ g ∈ f, ∀ c ∈ g, ReadsAs Bson.read n (same c.value) c.value.toJson) :
    ReadsAs Request.read (n + 4) (r.AgreesUpTo same) r.toJson := by
  obtain ⟨⟨f, hf, gf⟩, ⟨wf, f', hwf, hf', gf'⟩⟩ :=
    readsAs_option r.filter (fun f hmem => readsAs_filter (h f hmem)) fun _ => nofun
  obtain ⟨⟨_, ha, rfl⟩, ⟨wa, _, hwa, ha', rfl⟩⟩ :=
    readsAs_option_eq r.attributes
      (fun names _ => readsAs_list_eq names fun name _ => readsAs_string name (n + 2))
      fun _ => nofun
  obtain ⟨⟨_, hl, rfl⟩, ⟨wl, _, hwl, hl', rfl⟩⟩ := readsAs_optionalWord (n + 3) r.limit
  obtain ⟨⟨_, hp, rfl⟩, ⟨wp, _, hwp, hp', rfl⟩⟩ := readsAs_optionalWord (n + 3) r.page
  obtain ⟨⟨_, hk, rfl⟩, ⟨wk, _, hwk, hk', rfl⟩⟩ :=
    readsAs_option_eq r.order
      (fun keys _ => readsAs_list_eq keys fun key _ => readsAs_sortKey (n + 1) key)
      fun _ => nofun
  obtain ⟨⟨_, ht, rfl⟩, ⟨wt, _, hwt, ht', rfl⟩⟩ := readsAs_text (n + 3) r.search
  apply readsAs_record
  · refine ⟨⟨some r.database, some r.collection, some f, some r.attributes, some r.limit,
      some r.page, some r.order, some r.search⟩, { r with filter := f }, ?_, rfl, gf, rfl⟩
    simp [Request.shape, Shape.takeMembers, outlineMembers, outline, Outline.readString,
      Except.map, hf, ha, hl, hp, hk, ht]
  · refine ⟨[("database", .string r.database), ("collection", .string r.collection),
        ("filter", wf), ("attributes", wa), ("limit", wl), ("page", wp), ("order", wk),
        ("search", wt)],
      ⟨some r.database, some r.collection, some f', some r.attributes, some r.limit,
      some r.page, some r.order, some r.search⟩, { r with filter := f' }, ?_, ?_, rfl, gf', rfl⟩
    · simp [outlineMembers, Outline.readMembers, outline, Outline.readJson, hwf, hwa, hwl, hwp,
        hwk, hwt]
    · simp only [Entries.sorted, Entries.insertSorted, List.foldl_cons, List.foldl_nil,
        String.reduceEq, String.reduceLT, if_true, if_false]
      simp [Request.shape, Shape.takeMembers, Outline.ofMembers, Outline.ofJson,
        Outline.readString, Except.map, hf', ha', hl', hp', hk', ht']

end Gateway
