import Gateway.Proofs.Config.Written
import Gateway.Proofs.Query.Written

/-!
# What is written is decoded as it was

A request, a filter or a configuration that is written as JSON comes back, whether its text is
decoded as it stands or read whole into a value first. A request is no better than its values:
a document value with a key of its own for a kind is read as that kind, and one that is read
whole comes back with its keys sorted. So the statement takes any relation that the values keep
on their own, such as equality or the comparison of documents (`Bson.sameValue`), and says that
the requests keep it.
-/

namespace Gateway

open Gateway.Json

/-- The JSON text of a value is read as something `same`, at once and by way of a value. -/
def Bson.ReadsBack (same : Bson → Bson → Prop) (v : Bson) : Prop :=
  Json.ReadsBack (decodeText Bson.read) (decodeValue Bson.read) (same v) v.toJson

/-- A value that is read back alone is read back inside a request and inside a filter. -/
theorem Bson.ReadsBack.readsAs {same : Bson → Bson → Prop} {v : Bson} (h : v.ReadsBack same)
    (hdepth : v.depth ≤ 100) {n : Nat} (hn : 103 ≤ n) (hmax : n ≤ maxDepth) :
    ReadsAs Bson.read n (same v) v.toJson := by
  have houtline : (outline v.toJson).depth ≤ 103 :=
    (Bson.depth_outline_toJson v).trans (Nat.add_le_add_right hdepth 3)
  exact (readsBack_iff.mp h).room Bson.read_room (by omega) (by omega)

theorem Filter.AgreesUpTo.eq {f f' : Filter} (h : Filter.AgreesUpTo (· = ·) f f') : f = f' := by
  have hgroups : List.Forall₂ (· = ·) f f' := by
    apply List.Forall₂.imp _ h
    intro g g' hg
    have hconditions : List.Forall₂ (· = ·) g g' := hg.imp fun _ _ => Condition.AgreesUpTo.eq
    rwa [List.forall₂_eq_eq_eq] at hconditions
  rwa [List.forall₂_eq_eq_eq] at hgroups

/-- Where the values come back equal, so does the request. -/
theorem Request.AgreesUpTo.eq {r r' : Request} (h : r.AgreesUpTo (· = ·) r') : r = r' := by
  obtain ⟨hfilter, hrest⟩ := h
  have hfilters : r.filter = r'.filter := by
    generalize r.filter = o, r'.filter = o' at hfilter
    cases hfilter with
    | none => rfl
    | some hf => rw [hf.eq]
  cases r
  cases r'
  cases hfilters
  cases hrest
  rfl

/-- Every request and every filter whose values each come back from their own text and do not
nest too deep comes back from its text, and every configuration does: decoded as a text and by
way of a value, with all fields equal and the values of the conditions `same`. -/
theorem written_readsBack (same : Bson → Bson → Prop) :
    (∀ r : Request,
      (∀ f ∈ r.filter, ∀ g ∈ f, ∀ c ∈ g, c.value.ReadsBack same ∧ c.value.depth ≤ 100) →
      ReadsBack Request.ofText Request.ofJson (r.AgreesUpTo same) r.toJson) ∧
    (∀ f : Filter,
      (∀ g ∈ f, ∀ c ∈ g, c.value.ReadsBack same ∧ c.value.depth ≤ 100) →
      ReadsBack Filter.ofText (decodeValue Filter.read) (Filter.AgreesUpTo same f)
        (Filter.toJson f)) ∧
    (∀ c : SourceConfig, ReadsBack SourceConfig.ofText SourceConfig.ofJson (· = c) c.toJson) := by
  refine ⟨?_, ?_, ?_⟩
  · intro r hvalues
    apply readsBack_iff.mpr
    apply readsAs_request (n := 123)
    intro f hf g hg c hc
    obtain ⟨hback, hdepth⟩ := hvalues f hf g hg c hc
    exact hback.readsAs hdepth (by decide) (by decide)
  · intro f hvalues
    apply readsBack_iff.mpr
    apply readsAs_filter (n := 124)
    intro g hg c hc
    obtain ⟨hback, hdepth⟩ := hvalues g hg c hc
    exact hback.readsAs hdepth (by decide) (by decide)
  · intro c
    apply readsBack_iff.mpr
    exact readsAs_config 124 c

/-- A document whose keys are not sorted. -/
def shelf : Bson := .document [("width", .string "40"), ("depth", .null)]

/-- A filter with an empty group and with a condition by no known operator. -/
def shelfFilter : Filter := [[⟨"size", .equal, shelf⟩, ⟨"size", .unrecognized, .null⟩], []]

def shelfRequest : Request :=
  { Request.all "shop" "shelves" with
    filter := some shelfFilter
    limit := some 18446744073709551615
    order := some [⟨"size", .descending⟩] }

def shelfConfig : SourceConfig :=
  ⟨none, none, some [⟨some "a", some 65535, none, some ""⟩], true, none, none, none⟩

theorem shelf_readsBack : shelf.ReadsBack fun v w => Bson.sameValue v w := by
  apply readsBack_iff.mpr
  constructor
  · exact ⟨shelf, rfl, rfl⟩
  · -- read whole, its keys are sorted
    exact ⟨.object [("depth", .null), ("width", .string "40")],
      .document [("depth", .null), ("width", .string "40")], rfl, rfl, rfl⟩

theorem null_readsBack : Bson.null.ReadsBack fun v w => Bson.sameValue v w :=
  readsBack_iff.mpr ⟨⟨.null, rfl, rfl⟩, ⟨.null, .null, rfl, rfl, rfl⟩⟩

theorem shelfFilter_readsBack : ∀ g ∈ shelfFilter, ∀ c ∈ g,
    (c.value.ReadsBack fun v w => Bson.sameValue v w) ∧ c.value.depth ≤ 100 := by
  intro g hg c hc
  simp only [shelfFilter, List.mem_cons, List.not_mem_nil, or_false] at hg
  rcases hg with rfl | rfl
  · simp only [List.mem_cons, List.not_mem_nil, or_false] at hc
    rcases hc with rfl | rfl
    · exact ⟨shelf_readsBack, by decide⟩
    · exact ⟨null_readsBack, by decide⟩
  · cases hc

theorem shelf_written_readsBack :
    (∀ g ∈ shelfFilter, ∀ c ∈ g,
      (c.value.ReadsBack fun v w => Bson.sameValue v w) ∧ c.value.depth ≤ 100) ∧
    ReadsBack Request.ofText Request.ofJson
      (shelfRequest.AgreesUpTo fun v w => Bson.sameValue v w) shelfRequest.toJson ∧
    ReadsBack Filter.ofText (decodeValue Filter.read)
      (Filter.AgreesUpTo (fun v w => Bson.sameValue v w) shelfFilter)
      (Filter.toJson shelfFilter) ∧
    ReadsBack SourceConfig.ofText SourceConfig.ofJson (· = shelfConfig) shelfConfig.toJson := by
  obtain ⟨hrequest, hfilter, hconfig⟩ := written_readsBack fun v w => Bson.sameValue v w
  refine ⟨shelfFilter_readsBack, hrequest shelfRequest ?_,
    hfilter shelfFilter shelfFilter_readsBack, hconfig shelfConfig⟩
  rintro f ⟨⟩
  exact shelfFilter_readsBack

end Gateway
