import Gateway.Proofs.Entries
import Gateway.Query.Native

/-!
# Orders of documents

The order of a request is told twice: as a list of keys with weights, and as a document of
weights by key. Both compare documents key by key. In the list a repeated attribute says
nothing new, since it is only looked at on a tie of its first place; the document has it
once, at its first place, but with its last weight. So the two agree, whatever the values
and however they are ordered, exactly when every attribute has the same direction in its
first and its last place (`sortDocument_orders_iff`).
-/

namespace Gateway

/-! ## Comparing by keys -/

/-- The answer of a comparison under a weight: a negative one reverses it. -/
def weighted (weight : Int32) (o : Ordering) : Ordering := if weight < 0 then o.swap else o

/-- Compares by keys in turn: a later one counts only on a tie of those before it. -/
def compareBy {δ : Type} (order : String → δ → δ → Ordering) :
    List (String × Int32) → δ → δ → Ordering
  | [], _, _ => .eq
  | (path, weight) :: keys, a, b =>
    (weighted weight (order path a b)).then (compareBy order keys a b)

/-- The weights in a document, in its order. -/
def weightsOf (d : Document) : List (String × Int32) :=
  d.filterMap fun e =>
    match e.2 with
    | .int32 weight => some (e.1, weight)
    | _ => none

section Compare

variable {δ : Type} {order : String → δ → δ → Ordering}

theorem weighted_eq (weight : Int32) : weighted weight .eq = .eq := by
  unfold weighted
  split <;> rfl

theorem weighted_then {weight : Int32} {o : Ordering} (h : o ≠ .eq) (next : Ordering) :
    (weighted weight o).then next = weighted weight o := by
  unfold weighted
  cases o <;> split <;> first | rfl | exact absurd rfl h

/-- The first attribute that tells two documents apart decides, by the weight it is looked
up with. -/
theorem compareBy_eq (keys : List (String × Int32)) (a b : δ) :
    compareBy order keys a b =
      (((Entries.keys keys).find? fun path => order path a b ≠ .eq).bind fun path =>
        (Entries.get? path keys).map fun weight => weighted weight (order path a b)).getD .eq := by
  induction keys with
  | nil => rfl
  | cons key keys ih =>
      obtain ⟨path, weight⟩ := key
      rw [Entries.keys_cons, compareBy]
      by_cases h : order path a b = .eq
      -- a tie: the search goes on, and only to attributes other than this one
      · rw [List.find?_cons_of_neg (by simp [h]), h, weighted_eq, ih]
        show Option.getD _ _ = _
        rcases hfind : (Entries.keys keys).find? fun path => order path a b ≠ .eq with _ | other
        · rfl
        · have hne : path ≠ other := by
            rintro rfl
            simpa [h] using List.find?_some hfind
          simp [Entries.get?, hne]
      · rw [List.find?_cons_of_pos (by simp [h]), weighted_then h]
        simp [Entries.get?]

end Compare

/-! ## The directions of an attribute -/

/-- The direction of an attribute at its first place. -/
def firstDirection? (path : String) (keys : List SortKey) : Option Direction :=
  (keys.find? fun k => k.path = path).map SortKey.direction

/-- The direction of an attribute at its last place. -/
def lastDirection? (path : String) (keys : List SortKey) : Option Direction :=
  firstDirection? path keys.reverse

/-- The keys of an order with their weights, as they are compiled. -/
def weightedKeys (keys : List SortKey) : List (String × Int32) :=
  keys.map fun k => (k.path, k.direction.weight)

theorem get?_weightedKeys (path : String) (keys : List SortKey) :
    Entries.get? path (weightedKeys keys) = (firstDirection? path keys).map Direction.weight := by
  induction keys with
  | nil => rfl
  | cons k keys ih =>
      show Entries.get? path ((k.path, k.direction.weight) :: weightedKeys keys) = _
      unfold firstDirection? at ih ⊢
      by_cases h : k.path = path
      · simp [Entries.get?, h]
      · simp [Entries.get?, h, ih]

theorem get?_ofList_weightedKeys (path : String) (keys : List SortKey) :
    Entries.get? path (Entries.ofList (weightedKeys keys)) =
      (lastDirection? path keys).map Direction.weight := by
  rw [Entries.get?_ofList]
  unfold weightedKeys lastDirection?
  rw [← List.map_reverse]
  exact get?_weightedKeys path keys.reverse

theorem weightsOf_map (keys : List (String × Int32)) :
    weightsOf (keys.map fun k => (k.1, .int32 k.2)) = keys := by
  unfold weightsOf
  rw [List.filterMap_map]
  exact List.filterMap_some

/-- What a direction, or none, makes of a comparison tells it. -/
theorem weighted_direction_injective {d e : Option Direction}
    (h : ((d.map Direction.weight).map fun weight => weighted weight .lt).getD .eq =
      ((e.map Direction.weight).map fun weight => weighted weight .lt).getD .eq) : d = e := by
  revert h
  rcases d with _ | _ | _ <;> rcases e with _ | _ | _ <;> decide

/-! ## The two tellings of an order -/

namespace NativeOptions

variable {δ : Type} (o : NativeOptions) (order : String → δ → δ → Ordering)

/-- Compares by the list of keys. -/
def compareByList (a b : δ) : Ordering := compareBy order (o.sort.getD []) a b

/-- Compares by the document of keys. -/
def compareByDocument (a b : δ) : Ordering :=
  compareBy order (weightsOf (o.sortDocument.getD [])) a b

variable (attributes : Option (List String)) (limit page : Option UInt64) (keys : List SortKey)

theorem compareByList_of (a b : δ) :
    (NativeOptions.of attributes limit page (some keys)).compareByList order a b =
      compareBy order (weightedKeys keys) a b := rfl

theorem compareByDocument_of (a b : δ) :
    (NativeOptions.of attributes limit page (some keys)).compareByDocument order a b =
      compareBy order (Entries.ofList (weightedKeys keys)) a b := by
  have hdocument : (NativeOptions.of attributes limit page (some keys)).sortDocument =
      some (Entries.ofList ((weightedKeys keys).map fun k => (k.1, Bson.int32 k.2))) := rfl
  unfold compareByDocument
  rw [hdocument, Option.getD_some, Entries.ofList_map, weightsOf_map]

end NativeOptions

/-! ## When they agree -/

/-- An order of documents that tells the empty one from the others, by one attribute only. -/
def emptyFirst (path other : String) (a b : Document) : Ordering :=
  if other = path then compareOn List.length a b else .eq

theorem emptyFirst_transCmp (path other : String) : Std.TransCmp (emptyFirst path other) := by
  unfold emptyFirst
  split
  · exact inferInstanceAs (Std.TransCmp (compareOn List.length))
  · exact { eq_swap := rfl, isLE_trans := fun _ _ => rfl }

/-- What a comparison by an attribute alone comes to: the weight that the attribute has. -/
theorem compareBy_emptyFirst (path : String) (keys : List (String × Int32)) (e : String × Bson) :
    compareBy (emptyFirst path) keys [] [e] =
      ((Entries.get? path keys).map fun weight => weighted weight .lt).getD .eq := by
  have hpath : emptyFirst path path [] [e] = .lt := if_pos rfl
  have hother : ∀ other, (emptyFirst path other [] [e] ≠ .eq) ↔ path = other := by
    intro other
    by_cases h : other = path
    · rw [h, hpath]
      simp
    · simp [emptyFirst, h, Ne.symm h]
  rw [compareBy_eq]
  simp only [hother]
  rcases hfind : (Entries.keys keys).find? fun other => path = other with _ | other
  · have hnone : path ∉ Entries.keys keys := by
      intro hmem
      simpa using List.find?_eq_none.mp hfind path hmem
    rw [Entries.get?_eq_none_iff.mpr hnone]
    rfl
  · obtain rfl : path = other := by simpa using List.find?_some hfind
    simp [hpath]

/-- **When a sort document orders as its list does.** For every order of a request, the
rendered document compares all documents as the list of keys does, however the values of
each attribute are ordered, if and only if every attribute has the same direction in its
first place and in its last. -/
theorem sortDocument_orders_iff (attributes : Option (List String)) (limit page : Option UInt64)
    (keys : List SortKey) :
    (∀ order : String → Document → Document → Ordering, (∀ path, Std.TransCmp (order path)) →
      ∀ a b,
        (NativeOptions.of attributes limit page (some keys)).compareByDocument order a b =
          (NativeOptions.of attributes limit page (some keys)).compareByList order a b) ↔
    ∀ path, firstDirection? path keys = lastDirection? path keys := by
  simp only [NativeOptions.compareByDocument_of, NativeOptions.compareByList_of]
  constructor
  · intro h path
    have hsame := h (emptyFirst path) (emptyFirst_transCmp path) [] [("", .null)]
    rw [compareBy_emptyFirst, compareBy_emptyFirst, get?_weightedKeys,
      get?_ofList_weightedKeys] at hsame
    exact (weighted_direction_injective hsame).symm
  · intro h order _ a b
    have hget : ∀ path, Entries.get? path (Entries.ofList (weightedKeys keys)) =
        Entries.get? path (weightedKeys keys) := by
      intro path
      rw [get?_weightedKeys, get?_ofList_weightedKeys, h]
    rw [compareBy_eq, compareBy_eq, Entries.find?_keys_ofList]
    simp only [hget]

/-! ## Orders that agree, and one that does not -/

/-- The number under an attribute of a document; without one it counts as zero. -/
def numberAt (path : String) (d : Document) : Int :=
  match Entries.get? path d with
  | some (.int32 n) => n.toInt
  | _ => 0

/-- Documents by the number under an attribute. -/
def byNumber (path : String) : Document → Document → Ordering := compareOn (numberAt path)

theorem byNumber_transCmp (path : String) : Std.TransCmp (byNumber path) :=
  inferInstanceAs (Std.TransCmp (compareOn (numberAt path)))

/-- An attribute that comes twice, both times descending. -/
def repeatedKeys : List SortKey := [⟨"a", .descending⟩, ⟨"b", .ascending⟩, ⟨"a", .descending⟩]

/-- It does no harm: on a tie by it the other attribute decides. -/
theorem sortDocument_orders_repeated :
    (∀ path, firstDirection? path repeatedKeys = lastDirection? path repeatedKeys) ∧
      (NativeOptions.of none none none (some repeatedKeys)).compareByDocument byNumber
        [("a", .int32 1), ("b", .int32 2)] [("a", .int32 1), ("b", .int32 3)] = .lt := by
  have hdirections : ∀ path,
      firstDirection? path repeatedKeys = lastDirection? path repeatedKeys := by
    intro path
    simp only [firstDirection?, lastDirection?, repeatedKeys]
    by_cases ha : path = "a" <;> by_cases hb : path = "b" <;> simp_all
  refine ⟨hdirections, ?_⟩
  rw [(sortDocument_orders_iff none none none repeatedKeys).mpr hdirections byNumber
    byNumber_transCmp]
  decide

/-- Not every order is rendered faithfully: ascending and then descending by one attribute,
of which the second says nothing, becomes descending. -/
theorem not_sortDocument_orders :
    ¬ ∀ (keys : List SortKey) (order : String → Document → Document → Ordering),
      (∀ path, Std.TransCmp (order path)) → ∀ a b,
        (NativeOptions.of none none none (some keys)).compareByDocument order a b =
          (NativeOptions.of none none none (some keys)).compareByList order a b := by
  intro h
  have hsame := h [⟨"a", .ascending⟩, ⟨"a", .descending⟩] byNumber byNumber_transCmp
    [("a", .int32 1)] [("a", .int32 2)]
  exact absurd hsame (by decide)

end Gateway
