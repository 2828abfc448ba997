import Gateway.Decode
import Gateway.Proofs.Bson.Agreement

/-!
# Requests at once and by way of a value

The text of a request can be read as it comes, or a value can be read whole from it first and then
be read as a request. Where no key is there twice, both ways accept the same texts and find the
same request, whatever the order of the keys and whatever fields there are beside (`agrees_read`).
Only what stands in the values of conditions can tell them apart. There the second way finds the
entries of a document in the order of their keys, and it accepts what the first accepts if sorting
the keys leaves plain keys and tags on their sides (`readers_agree`).
-/

namespace Gateway

open Gateway.Json

variable {P : Prop} {o : Outline} {g : Bson → Bson}

/-! ## Changed values -/

/-- A condition with its value changed. -/
def Condition.mapValue (g : Bson → Bson) (c : Condition) : Condition :=
  { c with value := g c.value }

/-- A request with the values of its conditions changed. -/
def Request.mapValues (g : Bson → Bson) (r : Request) : Request :=
  { r with filter := r.filter.map (List.map (List.map (Condition.mapValue g))) }

theorem Request.mapValues_id (r : Request) : r.mapValues id = r := by
  have hmap : Condition.mapValue id = id := rfl
  simp [mapValues, hmap]

/-! ## Parts of a request -/

theorem Operator.agrees_read (ho : o.KeysDistinct) : Agrees P Operator.read id o :=
  (agrees_readChoice ho).map fun _ => rfl

theorem Direction.agrees_read (o : Outline) : Agrees P (fun _ => Direction.read) id o :=
  (agrees_readOption fun _ => agrees_readString o).map fun name => by
    rw [Option.map_id, id, id]

namespace Condition

theorem isApart_shape : Condition.shape.IsApart :=
  Shape.isApart_of_pairwise (by simp [Condition.shape, Field.separate_of_put])

/-- A missing value is null, so null has to stay. -/
theorem carries (hnull : g .null = .null) :
    Condition.shape.Carries (fun d => { d with value := d.value.map g }) (mapValue g) where
  start := rfl
  given := by
    intro f hf d
    simp only [Condition.shape, List.mem_cons, List.not_mem_nil, or_false] at hf
    rcases hf with rfl | rfl | rfl
    · rfl
    · rfl
    · exact Option.isSome_map
  finish := by
    rintro ⟨_ | path, _ | operator, value⟩
    · exact .error _ _
    · exact .error _ _
    · exact .error _ _
    · have hvalue : (value.map g).getD .null = g (value.getD .null) := by
        cases value with
        | none => exact hnull.symm
        | some b => rfl
      simp only [Condition.shape, hvalue]
      exact .ok (g := mapValue g) _

theorem agrees_read (hnull : g .null = .null) (ho : o.KeysDistinct)
    (hvalue : ∀ w, Condition.shape.Gives "value" o w → Agrees P Bson.read g w) :
    Agrees P Condition.read (mapValue g) o := by
  refine Shape.read_agrees (carries hnull) isApart_shape ho fun f hf x hx => ?_
  have hkeys : x.KeysDistinct := hx.everyObject ho
  simp only [Condition.shape, List.mem_cons, List.not_mem_nil, or_false] at hf
  rcases hf with rfl | rfl | rfl
  · exact Field.agrees_of_map (fun _ _ _ => rfl) (agrees_readString x) fun _ _ => rfl
  · exact Field.agrees_of_map (fun _ _ _ => rfl) (Operator.agrees_read hkeys) fun _ _ => rfl
  · exact Field.agrees_of_map (fun _ _ _ => rfl) (hvalue x hx) fun _ _ => rfl

end Condition

namespace SortKey

theorem isApart_shape : SortKey.shape.IsApart :=
  Shape.isApart_of_pairwise (by simp [SortKey.shape, Field.separate_of_put])

theorem agrees_read (ho : o.KeysDistinct) : Agrees P SortKey.read id o := by
  refine Shape.read_agrees (Shape.carries_id _) isApart_shape ho fun f hf x _ => ?_
  simp only [SortKey.shape, List.mem_cons, List.not_mem_nil, or_false] at hf
  rcases hf with rfl | rfl
  · exact Field.agrees_of_map (fun _ _ _ => rfl) (agrees_readString x) fun _ _ => rfl
  · exact Field.agrees_of_map (fun _ _ _ => rfl) (Direction.agrees_read x) fun _ _ => rfl

end SortKey

/-! ## Requests -/

namespace Request

/-- A value of a condition in the filter of a request. -/
def IsConditionValue (o w : Outline) : Prop :=
  ∃ filter group condition, Request.shape.Gives "filter" o filter ∧ group ∈ filter.items ∧
    condition ∈ group.items ∧ Condition.shape.Gives "value" condition w

theorem IsConditionValue.everyObject {P : List String → Prop} {w : Outline}
    (h : IsConditionValue o w) (ho : o.EveryObject P) : w.EveryObject P := by
  obtain ⟨filter, group, condition, hfilter, hgroup, hcondition, hw⟩ := h
  exact hw.everyObject (((hfilter.everyObject ho).items hgroup).items hcondition)

theorem isApart_shape : Request.shape.IsApart :=
  Shape.isApart_of_pairwise (by simp [Request.shape, Field.separate_of_put])

theorem carries (g : Bson → Bson) : Request.shape.Carries
    (fun d => { d with
      filter := d.filter.map (Option.map (List.map (List.map (Condition.mapValue g)))) })
    (mapValues g) where
  start := rfl
  given := by
    intro f hf d
    simp only [Request.shape, List.mem_cons, List.not_mem_nil, or_false] at hf
    rcases hf with rfl | rfl | rfl | rfl | rfl | rfl | rfl | rfl
    · rfl
    · rfl
    · exact Option.isSome_map
    all_goals rfl
  finish := by
    rintro ⟨_ | database, _ | collection, filter, attributes, limit, page, order, search⟩
    · exact .error _ _
    · exact .error _ _
    · exact .error _ _
    · rcases filter with _ | filter
      · exact .ok (g := mapValues g) _
      · exact .ok (g := mapValues g) _

/-- A request agrees when the values of its conditions do. -/
theorem agrees_read (hnull : g .null = .null) (ho : o.KeysDistinct)
    (hvalue : ∀ w, IsConditionValue o w → Agrees P Bson.read g w) :
    Agrees P Request.read (mapValues g) o := by
  have hmap : ∀ {α : Type}, Option.map (List.map (id : α → α)) = id := by simp
  refine Shape.read_agrees (carries g) isApart_shape ho fun f hf x hx => ?_
  have hkeys : x.KeysDistinct := hx.everyObject ho
  have hstring : Agrees P (fun _ => Outline.readString) id x := agrees_readString x
  have hword : Agrees P (fun _ x => x.readOption Outline.readWord) id x := by
    simpa using agrees_readOption fun _ => agrees_readWord x
  simp only [Request.shape, List.mem_cons, List.not_mem_nil, or_false] at hf
  rcases hf with rfl | rfl | rfl | rfl | rfl | rfl | rfl | rfl
  · exact Field.agrees_of_map (fun _ _ _ => rfl) hstring fun _ _ => rfl
  · exact Field.agrees_of_map (fun _ _ _ => rfl) hstring fun _ _ => rfl
  · have hfilter : Agrees P Filter.read (List.map (List.map (Condition.mapValue g))) x := by
      refine agrees_readList fun group hgroup => agrees_readList fun c hc => ?_
      refine Condition.agrees_read hnull ((hkeys.items hgroup).items hc) fun w hw => ?_
      exact hvalue w ⟨x, group, c, hx, hgroup, hc, hw⟩
    exact Field.agrees_of_map (fun _ _ _ => rfl) (agrees_readOption fun _ => hfilter)
      fun _ _ => rfl
  · have hattributes : Agrees P
        (fun s x => x.readOption (Outline.readList (fun _ => Outline.readString) s)) id x := by
      rw [← hmap]
      exact agrees_readOption fun _ => agrees_readList fun y _ => agrees_readString y
    exact Field.agrees_of_map (fun _ _ _ => rfl) hattributes fun _ _ => rfl
  · exact Field.agrees_of_map (fun _ _ _ => rfl) hword fun _ _ => rfl
  · exact Field.agrees_of_map (fun _ _ _ => rfl) hword fun _ _ => rfl
  · have horder : Agrees P (fun s x => x.readOption (Outline.readList SortKey.read s)) id x := by
      rw [← hmap]
      refine agrees_readOption fun _ => agrees_readList fun y hy => ?_
      exact SortKey.agrees_read (hkeys.items hy)
    exact Field.agrees_of_map (fun _ _ _ => rfl) horder fun _ _ => rfl
  · have hsearch : Agrees P (fun _ x => x.readOption Outline.readString) id x := by
      simpa using agrees_readOption fun _ => hstring
    exact Field.agrees_of_map (fun _ _ _ => rfl) hsearch fun _ _ => rfl

/-! ## Texts -/

theorem ofJson_eq_ok {v : Json} {r : Request} :
    Request.ofJson v = .ok r ↔ Request.read .value (.ofJson v) = .ok r := by
  rw [Request.ofJson, decodeValue, mapError_eq_ok, readValue]

/-- **The two readers of requests agree**, where no object repeats a key, up to the order of entries
in the values of conditions. One accepts what the other accepts, unless in an object of these
values sorting the keys puts a plain key behind a tag or leaves none there. They give the same
request if the keys of these objects ascend. -/
theorem readers_agree {t : String} {v : Json} (hv : Json.decode t = .ok v)
    (hkeys : (Layout.ofText t).value.KeysDistinct) :
    (∀ r r', Request.ofText t = .ok r → Request.ofJson v = .ok r' →
      r' = r.mapValues Bson.sorted) ∧
    ((∀ w, IsConditionValue (Layout.ofText t).value w → w.EveryObject Bson.KeepsTags) →
      ((∃ r, Request.ofText t = .ok r) ↔ ∃ r', Request.ofJson v = .ok r')) ∧
    ((∀ w, IsConditionValue (Layout.ofText t).value w → w.KeysAscend) →
      ∀ r, Request.ofText t = .ok r ↔ Request.ofJson v = .ok r) := by
  obtain ⟨hread, htrailing⟩ := decodeText_eq_ok.mp hv
  have htext : ∀ r, Request.ofText t = .ok r ↔
      Request.read .text (Layout.ofText t).value = .ok r := fun r => by
    rw [Request.ofText, decodeText_eq_ok, htrailing, and_iff_left rfl]
  have hagrees : Agrees
      (∀ w, IsConditionValue (Layout.ofText t).value w → w.EveryObject Bson.KeepsTags)
      Request.read (mapValues Bson.sorted) (Layout.ofText t).value :=
    agrees_read rfl hkeys fun w hw =>
      (Bson.agrees_read w (hw.everyObject hkeys)).imp fun h => h w hw
  have hmirrors := hagrees .text v nofun hread
  simp only [htext, ofJson_eq_ok]
  refine ⟨fun r r' => hmirrors.same, hmirrors.both, fun hascend r => ?_⟩
  have hsame : Agrees True Request.read (mapValues id) (Layout.ofText t).value :=
    agrees_read rfl hkeys fun w hw => Bson.agrees_read_of_keysAscend (hascend w hw)
  rw [(hsame .text v nofun hread).eq_ok_iff trivial]
  simp [mapValues_id]

/-- A request with the keys of its objects in no order and two fields that it does not know. -/
def shuffled (value : Json) : Json :=
  .object [("version", .string "2"),
    ("filter", .array [.array [.object [("value", value), ("note", .null),
      ("operator", .string "less"), ("attribute", .string "x")]]]),
    ("database", .string "d"), ("collection", .string "c")]

/-- The value that is read from it. -/
def arranged (value : Json) : Json :=
  .object [("collection", .string "c"), ("database", .string "d"),
    ("filter", .array [.array [.object [("attribute", .string "x"), ("note", .null),
      ("operator", .string "less"), ("value", value)]]]),
    ("version", .string "2")]

/-- The request that it is. -/
def lessThan (value : Bson) : Request :=
  { all "d" "c" with filter := some [[⟨"x", .less, value⟩]] }

/-- A document of two entries, of which one is tagged. -/
def descending : Json := .object [("b", .bool true), ("a", .object [("$symbol", .string "s")])]

/-- The same document with its keys in order. -/
def ascending : Json := .object [("a", .object [("$symbol", .string "s")]), ("b", .bool true)]

/-- Whatever the order of the other keys, the entries are in the order of the text for the one
reader and in that of their keys for the other, and these can be the same. -/
theorem shuffled_agree :
    (Json.decode (shuffled descending).render = .ok (arranged ascending) ∧
      Request.ofText (shuffled descending).render =
        .ok (lessThan (.document [("b", .bool true), ("a", .symbol "s")])) ∧
      Request.ofJson (arranged ascending) =
        .ok (lessThan (.document [("a", .symbol "s"), ("b", .bool true)]))) ∧
    Json.decode (shuffled ascending).render = .ok (arranged ascending) ∧
      Request.ofText (shuffled ascending).render =
        .ok (lessThan (.document [("a", .symbol "s"), ("b", .bool true)])) ∧
      Request.ofJson (arranged ascending) =
        .ok (lessThan (.document [("a", .symbol "s"), ("b", .bool true)])) := by
  constructor
  · generalize ht : (shuffled descending).render = t
    have hv : Json.decode t = .ok (arranged ascending) := by
      rw [← ht, Json.decode, decodeText_render]
      rfl
    have hkeys : (Layout.ofText t).value.KeysDistinct := by
      rw [← ht, ofText_render]
      decide
    have htags : (Layout.ofText t).value.EveryObject Bson.KeepsTags := by
      rw [← ht, ofText_render]
      decide
    have hread : Request.ofText t =
        .ok (lessThan (.document [("b", .bool true), ("a", .symbol "s")])) := by
      rw [← ht, Request.ofText, decodeText_render]
      rfl
    obtain ⟨hsame, hboth, -⟩ := readers_agree hv hkeys
    obtain ⟨r, hr⟩ := (hboth fun w hw => hw.everyObject htags).mp ⟨_, hread⟩
    obtain rfl := hsame _ r hread hr
    exact ⟨hv, hread, hr⟩
  · generalize ht : (shuffled ascending).render = t
    have hv : Json.decode t = .ok (arranged ascending) := by
      rw [← ht, Json.decode, decodeText_render]
      rfl
    have hkeys : (Layout.ofText t).value.KeysDistinct := by
      rw [← ht, ofText_render]
      decide
    have hascend : ∀ w, IsConditionValue (Layout.ofText t).value w → w.KeysAscend := by
      rw [← ht, ofText_render]
      rintro w ⟨filter, group, condition, hfilter, hgroup, hcondition, hw⟩
      simp [shuffled, Json.outline, Json.outlineItems, Json.outlineMembers, Shape.Gives] at hfilter
      subst hfilter
      simp [Outline.items] at hgroup
      subst hgroup
      simp [Outline.items] at hcondition
      subst hcondition
      simp [Shape.Gives] at hw
      subst hw
      decide
    have hread : Request.ofText t =
        .ok (lessThan (.document [("a", .symbol "s"), ("b", .bool true)])) := by
      rw [← ht, Request.ofText, decodeText_render]
      rfl
    obtain ⟨-, -, hequal⟩ := readers_agree hv hkeys
    exact ⟨hv, hread, (hequal hascend _).mp hread⟩

/-- A tag behind a plain key that is greater. -/
def covered : Json := .object [("b", .bool true), ("$symbol", .string "s")]

/-- The same object with its keys in order. -/
def uncovered : Json := .object [("$symbol", .string "s"), ("b", .bool true)]

/-- Without these conditions the readers part: a document whose keys do not ascend comes in two
orders, and a plain key in front of a smaller tag is refused by the second reader alone. -/
theorem readers_part :
    (Json.decode (shuffled descending).render = .ok (arranged ascending) ∧
      (Layout.ofText (shuffled descending).render).value.KeysDistinct ∧
      ∃ r r', Request.ofText (shuffled descending).render = .ok r ∧
        Request.ofJson (arranged ascending) = .ok r' ∧ r ≠ r') ∧
    Json.decode (shuffled covered).render = .ok (arranged uncovered) ∧
      (Layout.ofText (shuffled covered).render).value.KeysDistinct ∧
      ∃ r fault, Request.ofText (shuffled covered).render = .ok r ∧
        Request.ofJson (arranged uncovered) = .error fault := by
  simp only [Json.decode, Request.ofText, decodeText_render, ofText_render]
  refine ⟨⟨rfl, by decide, lessThan (.document [("b", .bool true), ("a", .symbol "s")]),
    lessThan (.document [("a", .symbol "s"), ("b", .bool true)]), rfl, rfl, ?_⟩,
    rfl, by decide, lessThan (.symbol "s"), _, rfl, rfl⟩
  simp [lessThan]

end Request

end Gateway
