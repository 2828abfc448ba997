import Gateway.Proofs.Query.Recognized

/-!
# Native filters read back

A native filter says which recognized conditions it was made of, and how they were grouped.
What keeps the shapes apart is that nothing is asked of an attribute in the form of a list:
so an entry `$and` or `$or` with a list is a conjunction or a disjunction, also where an
attribute has that name. And the three ways to ask for equality, by a bare value, by `$in`
and by `$elemMatch`, are told apart by the kind of the value.

Hence two filters have the same native filter exactly when they have the same recognized
conditions in the same groups. This holds for identity, and for the comparison of values,
in which the entries of a document may stand in any order.
-/

namespace Gateway

/-! ## Reading -/

/-- The condition of which an entry of a native filter was made. -/
def Condition.ofEntry (path : String) : Bson → Condition
  | .document [("$in", .array items)] => ⟨path, .equal, .array items⟩
  | .document [("$elemMatch", .document entries)] => ⟨path, .equal, .document entries⟩
  | .document [("$nin", .array items)] => ⟨path, .notEqual, .array items⟩
  | .document [("$not", .document [("$elemMatch", .document entries)])] =>
    ⟨path, .notEqual, .document entries⟩
  | .document [("$ne", value)] => ⟨path, .notEqual, value⟩
  | .document [("$gt", value)] => ⟨path, .greater, value⟩
  | .document [("$gte", value)] => ⟨path, .greaterOrEqual, value⟩
  | .document [("$lt", value)] => ⟨path, .less, value⟩
  | .document [("$lte", value)] => ⟨path, .lessOrEqual, value⟩
  | value => ⟨path, .equal, value⟩

/-- A member of a conjunction is a document of one entry; any other stands for nothing. -/
def Condition.ofItem? : Bson → Option Condition
  | .document [(path, test)] => some (.ofEntry path test)
  | _ => none

/-- The group of which a native filter was made. -/
def Group.readBack : Document → Group
  | [("$and", .array items)] => items.filterMap Condition.ofItem?
  | [(path, test)] => [.ofEntry path test]
  | _ => []

def Group.ofItem : Bson → Group
  | .document d => .readBack d
  | _ => []

/-- The filter of which a native filter was made. -/
def Filter.readBack : Document → Filter
  | [] => []
  | [("$or", .array items)] => items.map Group.ofItem
  | d => [.readBack d]

/-! ## What is read -/

theorem Asks.ofEntry {operator : Operator} {v test : Bson} (h : Asks operator v test)
    (path : String) : Condition.ofEntry path test = ⟨path, operator, v⟩ := by
  cases h with
  | bare h =>
    cases v with
    | document entries => simp at h
    | _ => rfl
  | other h => simp [Condition.ofEntry]
  | _ => simp [Condition.ofEntry]

theorem Condition.Becomes.ofItem? {c : Condition} {d : Document} (h : c.Becomes d) :
    Condition.ofItem? (.document d) = some c := by
  obtain ⟨test, hasks, rfl⟩ := h
  exact congrArg some (hasks.ofEntry c.path)

theorem Condition.filterMap_ofItem? {g : Group} {ds : List Document}
    (h : List.Forall₂ Becomes g ds) : (ds.map Bson.document).filterMap ofItem? = g := by
  induction h with
  | nil => rfl
  | cons hd _ ih => rw [List.map_cons, List.filterMap_cons_some hd.ofItem?, ih]

/-- An entry with anything but a list is a condition, whatever its name. -/
theorem Group.readBack_entry {path : String} {test : Bson} (h : ∀ items, test ≠ .array items) :
    readBack [(path, test)] = [.ofEntry path test] := by
  unfold readBack
  split
  · rename_i heq
    simp only [List.cons.injEq, Prod.mk.injEq] at heq
    exact absurd heq.1.2 (h _)
  · rename_i heq
    simp only [List.cons.injEq, Prod.mk.injEq] at heq
    obtain ⟨⟨rfl, rfl⟩, -⟩ := heq
    rfl
  · rename_i hne
    exact absurd rfl (hne path test)

theorem Group.readBack_native (g : Group) : readBack g.native = g.recognized := by
  rcases g.native_cases with ⟨hrec, h⟩ | ⟨c, test, hrec, hasks, h⟩ | ⟨ds, -, hds, h⟩
  · rw [h, hrec]
    rfl
  · rw [h, hrec, readBack_entry hasks.ne_array, hasks.ofEntry]
  · rw [h]
    exact Condition.filterMap_ofItem? hds

/-- A group is one entry, and no disjunction. -/
theorem Group.native_eq_entry (g : Group) :
    ∃ key value, g.native = [(key, value)] ∧ (key = "$or" → ¬ value.kind = .list) := by
  rcases g.native_cases with ⟨-, h⟩ | ⟨c, test, -, hasks, h⟩ | ⟨ds, -, -, h⟩
  · exact ⟨_, _, h, by simp⟩
  · exact ⟨_, _, h, fun _ => hasks.kind_ne⟩
  · exact ⟨_, _, h, by simp⟩

theorem Filter.readBack_entry {key : String} {value : Bson}
    (h : key = "$or" → ¬ value.kind = .list) :
    readBack [(key, value)] = [.readBack [(key, value)]] := by
  unfold readBack
  split
  · simp_all
  · simp_all
  · rfl

theorem Filter.readBack_native (f : Filter) : readBack f.native = f.recognized := by
  match f with
  | [] => rfl
  | [g] =>
    obtain ⟨key, value, hentry, hor⟩ := g.native_eq_entry
    have hg := g.readBack_native
    change readBack g.native = [g.recognized]
    rw [hentry] at hg ⊢
    rw [readBack_entry hor, hg]
  | g :: g' :: gs =>
    have hitem (k : Group) : Group.ofItem (.document k.native) = k.recognized := k.readBack_native
    change (((g :: g' :: gs).map Group.native).map Bson.document).map Group.ofItem = _
    rw [List.map_map, List.map_map]
    exact List.map_congr_left fun k _ => hitem k

/-! ## What compares as the same -/

/-- Conditions that are the same for a comparison. -/
structure Condition.Alike (c d : Condition) : Prop where
  path : c.path = d.path
  operator : c.operator = d.operator
  value : c.value.sameValue d.value = true

/-- Groups with the same conditions, for a comparison, at the same places. -/
def Group.Alike (g h : Group) : Prop := List.Forall₂ Condition.Alike g h

/-- Filters with the same groups, for a comparison, at the same places. -/
def Filter.Alike (f g : Filter) : Prop := List.Forall₂ Group.Alike f g

theorem Condition.Becomes.sameValue_iff {b c : Condition} {d e : Document} (hd : b.Becomes d)
    (he : c.Becomes e) : Bson.sameValue (.document d) (.document e) = true ↔ b.Alike c := by
  obtain ⟨t, ht, rfl⟩ := hd
  obtain ⟨u, hu, rfl⟩ := he
  rw [Bson.sameValue_entry, ht.sameValue_iff hu]
  constructor
  · rintro ⟨hp, ho, hv⟩
    exact ⟨hp, ho, hv⟩
  · rintro ⟨hp, ho, hv⟩
    exact ⟨hp, ho, hv⟩

theorem Condition.sameItems_iff {g h : Group} {ds es : List Document}
    (hg : List.Forall₂ Becomes g ds) (hh : List.Forall₂ Becomes h es) :
    Bson.sameItems (ds.map .document) (es.map .document) = true ↔ Group.Alike g h := by
  rw [Bson.sameItems_iff, Group.Alike]
  induction hg generalizing h es with
  | nil => cases hh <;> simp
  | cons hd _ ih =>
      cases hh with
      | nil => simp
      | cons he htail =>
          simp only [List.map_cons, List.forall₂_cons, hd.sameValue_iff he]
          rw [ih htail]

/-- A conjunction is not the same as a condition that stands bare. -/
theorem Asks.not_sameValue {operator : Operator} {v test : Bson} (h : Asks operator v test)
    (path key : String) (items : List Bson) :
    ¬ Bson.sameValue (.document [(path, test)]) (.document [(key, .array items)]) = true ∧
      ¬ Bson.sameValue (.document [(key, .array items)]) (.document [(path, test)]) = true := by
  have hkind := h.kind_ne
  simp only [Bson.sameValue_entry]
  refine ⟨?_, ?_⟩
  · rw [Bson.sameValue_of_kind_ne hkind]
    simp
  · rw [Bson.sameValue_of_kind_ne fun heq => hkind heq.symm]
    simp

theorem Group.sameValue_native_iff (g h : Group) :
    Bson.sameValue (.document g.native) (.document h.native) = true ↔
      g.recognized.Alike h.recognized := by
  have hne (hl : g.recognized.length ≠ h.recognized.length) :
      ¬ g.recognized.Alike h.recognized := fun hgh => hl (List.Forall₂.length_eq hgh)
  -- conjunctions of different lengths are not the same either
  have hitems {key : String} {as bs : List Bson} (hl : as.length ≠ bs.length) :
      ¬ Bson.sameValue (.document [(key, .array as)]) (.document [(key, .array bs)]) = true := by
    intro hsame
    exact hl (Bson.sameItems_iff.mp (Bson.sameValue_entry.mp hsame).2).length_eq
  rcases g.native_cases with ⟨hg, hng⟩ | ⟨b, t, hg, ht, hng⟩ | ⟨ds, hlen, hg, hng⟩
  all_goals rcases h.native_cases with ⟨hh, hnh⟩ | ⟨c, u, hh, hu, hnh⟩ | ⟨es, hlen', hh, hnh⟩
  all_goals rw [hng, hnh]
  · rw [hg, hh]
    exact iff_of_true rfl .nil
  · exact iff_of_false (hu.not_sameValue _ _ _).2 (hne (by simp [hg, hh]))
  · refine iff_of_false (hitems ?_) (hne ?_)
    · rw [List.length_singleton, List.length_map]
      omega
    · rw [hg, hh.length_eq, List.length_nil]
      omega
  · exact iff_of_false (ht.not_sameValue _ _ _).1 (hne (by simp [hg, hh]))
  · have hb : b.Becomes [(b.path, t)] := ⟨t, ht, rfl⟩
    rw [hb.sameValue_iff ⟨u, hu, rfl⟩, hg, hh]
    exact ⟨fun hbc => .cons hbc .nil, fun hgh => (List.forall₂_cons.mp hgh).1⟩
  · refine iff_of_false (ht.not_sameValue _ _ _).1 (hne ?_)
    rw [hg, hh.length_eq, List.length_singleton]
    omega
  · refine iff_of_false (hitems ?_) (hne ?_)
    · rw [List.length_singleton, List.length_map]
      omega
    · rw [hh, hg.length_eq, List.length_nil]
      omega
  · refine iff_of_false (hu.not_sameValue _ _ _).2 (hne ?_)
    rw [hh, hg.length_eq, List.length_singleton]
    omega
  · rw [Bson.sameValue_entry, and_iff_right rfl]
    exact Condition.sameItems_iff hg hh

/-- A group that stands bare is not the same as a disjunction. -/
theorem Group.not_sameValue_or (g : Group) (items : List Bson) :
    ¬ Bson.sameValue (.document g.native) (.document [("$or", .array items)]) = true ∧
      ¬ Bson.sameValue (.document [("$or", .array items)]) (.document g.native) = true := by
  obtain ⟨key, value, hentry, hor⟩ := g.native_eq_entry
  rw [hentry, Bson.sameValue_entry, Bson.sameValue_entry]
  refine ⟨?_, ?_⟩
  · rintro ⟨hkey, hsame⟩
    rw [Bson.sameValue_of_kind_ne (hor hkey)] at hsame
    simp at hsame
  · rintro ⟨hkey, hsame⟩
    rw [Bson.sameValue_of_kind_ne fun heq => hor hkey.symm heq.symm] at hsame
    simp at hsame

theorem Filter.sameItems_iff (f g : Filter) :
    Bson.sameItems (f.map fun k => .document k.native) (g.map fun k => .document k.native) = true ↔
      f.recognized.Alike g.recognized := by
  rw [Bson.sameItems_iff, Alike, recognized, recognized]
  simp only [List.forall₂_map_left_iff, List.forall₂_map_right_iff, Group.sameValue_native_iff]

theorem Filter.sameValue_native_iff (f g : Filter) :
    Bson.sameValue (.document f.native) (.document g.native) = true ↔
      f.recognized.Alike g.recognized := by
  have hlength (h : f.recognized.Alike g.recognized) : f.length = g.length := by
    simpa [recognized] using List.Forall₂.length_eq h
  have hsingle (k : Group) : native [k] = k.native := rfl
  have hmany (k k' : Group) (ks : Filter) : native (k :: k' :: ks) =
      [("$or", .array ((k :: k' :: ks).map fun k => .document k.native))] := by
    simp [native]
  -- filters of different lengths have different recognized groups
  have hne (h : f.length ≠ g.length) : ¬ f.recognized.Alike g.recognized := fun hfg =>
    h (hlength hfg)
  rcases f with _ | ⟨k, _ | ⟨k', ks⟩⟩
  all_goals rcases g with _ | ⟨l, _ | ⟨l', ls⟩⟩
  · exact iff_of_true rfl .nil
  · obtain ⟨key, value, hentry, -⟩ := l.native_eq_entry
    rw [hsingle, hentry]
    exact iff_of_false (by simp [native, Bson.sameValue]) (hne (by simp))
  · exact iff_of_false (by simp [native, Bson.sameValue]) (hne (by simp))
  · obtain ⟨key, value, hentry, -⟩ := k.native_eq_entry
    rw [hsingle, hentry]
    exact iff_of_false (by simp [native, Bson.sameValue]) (hne (by simp))
  · rw [hsingle, hsingle, Group.sameValue_native_iff]
    exact ⟨fun h => .cons h .nil, fun h => (List.forall₂_cons.mp h).1⟩
  · rw [hsingle, hmany]
    exact iff_of_false (k.not_sameValue_or _).1 (hne (by simp))
  · exact iff_of_false (by simp [native, Bson.sameValue]) (hne (by simp))
  · rw [hsingle, hmany]
    exact iff_of_false (l.not_sameValue_or _).2 (hne (by simp))
  · rw [hmany, hmany, Bson.sameValue_entry, and_iff_right rfl]
    exact sameItems_iff _ _

/-- **Nothing but unrecognized conditions is lost.** Two filters have the same native filter
exactly when they have the same recognized conditions in the same groups, also when values
are the same only for a comparison; and the recognized conditions, group by group, can be
read back. -/
theorem native_eq_iff_recognized_eq (f g : Filter) :
    (f.native = g.native ↔ f.recognized = g.recognized) ∧
      (Bson.sameValue (.document f.native) (.document g.native) = true ↔
        f.recognized.Alike g.recognized) ∧
      Filter.readBack f.native = f.recognized := by
  refine ⟨⟨fun h => ?_, fun h => ?_⟩, f.sameValue_native_iff g, f.readBack_native⟩
  · rw [← f.readBack_native, h, g.readBack_native]
  · rw [← f.native_recognized, h, g.native_recognized]

end Gateway
