import Gateway.Proofs.Json.Exchange
import Gateway.Proofs.Sorted

/-!
# Values read whole

A value is read whole from an outline when every part of it is, and then its objects are sorted by
key. As an outline again (`Outline.ofJson`) it has the same leaves and items, and the same members
in the order of their keys if no key is there twice (`ofJson_object`). What can be read whole can
be passed over, and can be read whole once more.
-/

namespace Gateway.Json

variable {α : Type}

theorem Scope.enter_source {s inner : Scope} (h : s.enter = .ok inner) :
    inner.source = s.source := by
  obtain ⟨source, room⟩ := s
  cases source with
  | text =>
    cases room with
    | zero => cases h
    | succ n =>
      cases h
      rfl
  | value | table =>
    cases h
    rfl

theorem Ending.ofList_eq_ok {e : Ending} {u : Unit} : e.ofList = .ok u ↔ e = .closed := by
  cases e <;> simp [Ending.ofList]

theorem Ending.ofObject_eq_ok {e : Ending} {u : Unit} : e.ofObject = .ok u ↔ e = .closed := by
  cases e <;> simp [Ending.ofObject]

variable {s : Scope} {o : Outline} {v : Json} {os : List Outline} {ms : List (Key × Outline)}
  {e : Ending}

/-- Items, each with the value that it was read as. -/
def WholeItems (s : Scope) : List Outline → List Json → Prop :=
  List.Forall₂ fun o v => o.readJson s = .ok v

/-- Members, each with the entry that it was read as. -/
def WholeMembers (s : Scope) : List (Key × Outline) → List (String × Json) → Prop :=
  List.Forall₂ fun m e => m.1 = .ok e.1 ∧ m.2.readJson s = .ok e.2

theorem readItems_eq_ok {vs : List Json} :
    Outline.readItems s os = .ok vs ↔ WholeItems s os vs := by
  induction os generalizing vs with
  | nil =>
    constructor
    · rintro ⟨⟩
      exact .nil
    · rintro ⟨⟩
      rfl
  | cons o os ih =>
    simp only [Outline.readItems, bind_eq_ok]
    constructor
    · rintro ⟨v, hv, vs, hvs, ⟨⟩⟩
      exact .cons hv (ih.mp hvs)
    · rintro (_ | ⟨hv, hvs⟩)
      exact ⟨_, hv, _, ih.mpr hvs, rfl⟩

theorem whole_eq_ok {x : Except Malformed α} {a : α} : whole x = .ok a ↔ x = .ok a := by
  cases x <;> simp [whole]

theorem readMembers_eq_ok {es : List (String × Json)} :
    Outline.readMembers s ms = .ok es ↔ WholeMembers s ms es := by
  induction ms generalizing es with
  | nil =>
    constructor
    · rintro ⟨⟩
      exact .nil
    · rintro ⟨⟩
      rfl
  | cons m ms ih =>
    obtain ⟨key, o⟩ := m
    simp only [Outline.readMembers, bind_eq_ok, whole_eq_ok]
    constructor
    · rintro ⟨k, hk, v, hv, es, hes, ⟨⟩⟩
      exact .cons ⟨hk, hv⟩ (ih.mp hes)
    · rintro (_ | ⟨⟨hk, hv⟩, hes⟩)
      exact ⟨_, hk, _, hv, _, ih.mpr hes, rfl⟩

theorem readJson_array_eq_ok :
    (Outline.array os e).readJson s = .ok v ↔
      ∃ inner vs, s.enter = .ok inner ∧ WholeItems inner os vs ∧ e = .closed ∧ v = .array vs := by
  simp only [Outline.readJson, bind_eq_ok, readItems_eq_ok, Ending.ofList_eq_ok]
  constructor
  · rintro ⟨inner, hinner, vs, hvs, _, he, ⟨⟩⟩
    exact ⟨inner, vs, hinner, hvs, he, rfl⟩
  · rintro ⟨inner, vs, hinner, hvs, he, rfl⟩
    exact ⟨inner, hinner, vs, hvs, (), he, rfl⟩

theorem readJson_object_eq_ok :
    (Outline.object ms e).readJson s = .ok v ↔
      ∃ inner es, s.enter = .ok inner ∧ WholeMembers inner ms es ∧ e = .closed ∧
        v = .object (Entries.sorted es) := by
  simp only [Outline.readJson, bind_eq_ok, readMembers_eq_ok, Ending.ofObject_eq_ok]
  constructor
  · rintro ⟨inner, hinner, es, hes, _, he, ⟨⟩⟩
    exact ⟨inner, es, hinner, hes, he, rfl⟩
  · rintro ⟨inner, es, hinner, hes, he, rfl⟩
    exact ⟨inner, hinner, es, hes, (), he, rfl⟩

namespace Outline

theorem ofItems_eq_map (vs : List Json) : ofItems vs = vs.map ofJson := by
  induction vs with
  | nil => rfl
  | cons v vs ih => rw [ofItems, ih, List.map_cons]

theorem ofMembers_eq_map (es : List (String × Json)) :
    ofMembers es = es.map fun e => (.ok e.1, ofJson e.2) := by
  induction es with
  | nil => rfl
  | cons e es ih =>
    obtain ⟨k, v⟩ := e
    rw [ofMembers, ih, List.map_cons]

end Outline

/-- What has nothing inside is the same when it was read whole before. -/
theorem ofJson_eq_iff_of_leaf {y : Outline} (h : o.readJson s = .ok v) (hy : y.IsLeaf) :
    .ofJson v = y ↔ o = y := by
  cases o with
  | null | bool | string =>
    cases h
    rfl
  | number value =>
    obtain ⟨n, hn, rfl⟩ := map_eq_ok.mp h
    rw [whole_eq_ok.mp hn]
    rfl
  | raw | broken => cases h
  | array os e =>
    obtain ⟨inner, vs, -, -, -, rfl⟩ := readJson_array_eq_ok.mp h
    constructor <;> rintro rfl <;> exact hy.elim
  | object ms e =>
    obtain ⟨inner, es, -, -, -, rfl⟩ := readJson_object_eq_ok.mp h
    constructor <;> rintro rfl <;> exact hy.elim

theorem ofJson_leaf (h : o.readJson s = .ok v) (ho : o.IsLeaf) : .ofJson v = o :=
  (ofJson_eq_iff_of_leaf h ho).mpr rfl

/-- A list is one of the values that its items were read as. -/
theorem ofJson_array (h : (Outline.array os e).readJson s = .ok v) :
    ∃ inner vs, s.enter = .ok inner ∧ WholeItems inner os vs ∧ e = .closed ∧
      .ofJson v = Outline.array (vs.map .ofJson) .closed := by
  obtain ⟨inner, vs, hinner, hvs, he, rfl⟩ := readJson_array_eq_ok.mp h
  exact ⟨inner, vs, hinner, hvs, he, by rw [Outline.ofJson, Outline.ofItems_eq_map]⟩

/-! ## Objects -/

/-- The keys of members, as far as they can be read. -/
def names (ms : List (Key × Outline)) : List String := ms.filterMap fun m => m.1.toOption

namespace Outline

mutual

/-- The keys of every object, at any depth, are as `P` says. -/
def EveryObject (P : List String → Prop) : Outline → Prop
  | .array os _ => EveryItem P os
  | .object ms _ => P (names ms) ∧ EveryMember P ms
  | _ => True

def EveryItem (P : List String → Prop) : List Outline → Prop
  | [] => True
  | o :: os => EveryObject P o ∧ EveryItem P os

def EveryMember (P : List String → Prop) : List (Key × Outline) → Prop
  | [] => True
  | (_, o) :: ms => EveryObject P o ∧ EveryMember P ms

end

mutual

instance EveryObject.decidable (P : List String → Prop) [DecidablePred P] :
    (o : Outline) → Decidable (o.EveryObject P)
  | .null => .isTrue trivial
  | .bool _ => .isTrue trivial
  | .number _ => .isTrue trivial
  | .string _ => .isTrue trivial
  | .raw _ => .isTrue trivial
  | .broken _ => .isTrue trivial
  | .array os _ => EveryItem.decidable P os
  | .object ms _ =>
    have := EveryMember.decidable P ms
    inferInstanceAs (Decidable (P (names ms) ∧ EveryMember P ms))

instance EveryItem.decidable (P : List String → Prop) [DecidablePred P] :
    (os : List Outline) → Decidable (EveryItem P os)
  | [] => .isTrue trivial
  | o :: os =>
    have := EveryObject.decidable P o
    have := EveryItem.decidable P os
    inferInstanceAs (Decidable (EveryObject P o ∧ EveryItem P os))

instance EveryMember.decidable (P : List String → Prop) [DecidablePred P] :
    (ms : List (Key × Outline)) → Decidable (EveryMember P ms)
  | [] => .isTrue trivial
  | (_, o) :: ms =>
    have := EveryObject.decidable P o
    have := EveryMember.decidable P ms
    inferInstanceAs (Decidable (EveryObject P o ∧ EveryMember P ms))

end

variable {P : List String → Prop}

theorem EveryObject.array (h : (Outline.array os e).EveryObject P) :
    ∀ o ∈ os, o.EveryObject P := by
  rw [EveryObject] at h
  induction os with
  | nil => simp
  | cons o os ih =>
    rw [EveryItem] at h
    exact List.forall_mem_cons.mpr ⟨h.1, ih h.2⟩

theorem EveryObject.object (h : (Outline.object ms e).EveryObject P) :
    P (names ms) ∧ ∀ m ∈ ms, m.2.EveryObject P := by
  rw [EveryObject] at h
  refine ⟨h.1, ?_⟩
  replace h := h.2
  induction ms with
  | nil => simp
  | cons m ms ih =>
    rw [EveryMember] at h
    exact List.forall_mem_cons.mpr ⟨h.1, ih h.2⟩

mutual

theorem EveryObject.mono {Q : List String → Prop} (hPQ : ∀ ks, P ks → Q ks) :
    ∀ {o : Outline}, o.EveryObject P → o.EveryObject Q
  | .null, _ => trivial
  | .bool _, _ => trivial
  | .number _, _ => trivial
  | .string _, _ => trivial
  | .raw _, _ => trivial
  | .broken _, _ => trivial
  | .array _ _, h => EveryItem.mono hPQ h
  | .object _ _, h => ⟨hPQ _ h.1, EveryMember.mono hPQ h.2⟩

theorem EveryItem.mono {Q : List String → Prop} (hPQ : ∀ ks, P ks → Q ks) :
    ∀ {os : List Outline}, EveryItem P os → EveryItem Q os
  | [], _ => trivial
  | _ :: _, h => ⟨EveryObject.mono hPQ h.1, EveryItem.mono hPQ h.2⟩

theorem EveryMember.mono {Q : List String → Prop} (hPQ : ∀ ks, P ks → Q ks) :
    ∀ {ms : List (Key × Outline)}, EveryMember P ms → EveryMember Q ms
  | [], _ => trivial
  | (_, _) :: _, h => ⟨EveryObject.mono hPQ h.1, EveryMember.mono hPQ h.2⟩

end

/-- No object repeats a key. -/
def KeysDistinct (o : Outline) : Prop := o.EveryObject List.Nodup

instance (o : Outline) : Decidable o.KeysDistinct :=
  inferInstanceAs (Decidable (o.EveryObject List.Nodup))

/-- In every object the keys ascend. -/
def KeysAscend (o : Outline) : Prop := o.EveryObject (List.Pairwise (· < ·))

instance (o : Outline) : Decidable o.KeysAscend :=
  inferInstanceAs (Decidable (o.EveryObject (List.Pairwise (· < ·))))

theorem KeysAscend.keysDistinct (h : o.KeysAscend) : o.KeysDistinct :=
  h.mono fun _ hkeys => hkeys.imp fun hlt => hlt.ne

end Outline

theorem WholeMembers.names_eq {es : List (String × Json)} (h : WholeMembers s ms es) :
    names ms = Entries.keys es := by
  induction h with
  | nil => rfl
  | @cons m e ms es hm _ ih =>
    obtain ⟨key, o⟩ := m
    obtain ⟨rfl, -⟩ := hm
    rw [Entries.keys_cons, ← ih]
    rfl

/-- An object has the entries that its members were read as, sorted by key. With distinct keys
they are the same in another order. -/
theorem ofJson_object (h : (Outline.object ms e).readJson s = .ok v)
    (hkeys : (Outline.object ms e).KeysDistinct) :
    ∃ inner es fs, s.enter = .ok inner ∧ WholeMembers inner ms es ∧ e = .closed ∧ fs.Perm es ∧
      Entries.Ascending fs ∧
      .ofJson v = Outline.object (fs.map fun f => (.ok f.1, .ofJson f.2)) .closed := by
  obtain ⟨inner, es, hinner, hes, he, rfl⟩ := readJson_object_eq_ok.mp h
  have hnodup : (Entries.keys es).Nodup := by
    rw [← hes.names_eq]
    exact hkeys.object.1
  refine ⟨inner, es, Entries.sorted es, hinner, hes, he, Entries.sorted_perm hnodup,
    Entries.ascending_sorted es, ?_⟩
  rw [Outline.ofJson, Outline.ofMembers_eq_map]

/-! ## Passing over -/

mutual

/-- What can be read whole can be passed over. -/
theorem skip_of_readJson : ∀ (o : Outline) {s : Scope} {v : Json}, o.readJson s = .ok v →
    o.skip = .ok ()
  | .null, _, _, _ => rfl
  | .bool _, _, _, _ => rfl
  | .number _, _, _, _ => rfl
  | .string _, _, _, _ => rfl
  | .raw _, _, _, h => by cases h
  | .broken _, _, _, h => by cases h
  | .array os e, s, v, h => by
    simp only [Outline.readJson, bind_eq_ok, Ending.ofList_eq_ok] at h
    obtain ⟨inner, -, vs, hvs, _, rfl, -⟩ := h
    rw [Outline.skip, skipItems_of_readItems os hvs]
    rfl
  | .object ms e, s, v, h => by
    simp only [Outline.readJson, bind_eq_ok, Ending.ofObject_eq_ok] at h
    obtain ⟨inner, -, es, hes, _, rfl, -⟩ := h
    rw [Outline.skip, skipMembers_of_readMembers ms hes]
    rfl

theorem skipItems_of_readItems : ∀ (os : List Outline) {s : Scope} {vs : List Json},
    Outline.readItems s os = .ok vs → Outline.skipItems os = .ok ()
  | [], _, _, _ => rfl
  | o :: os, s, vs, h => by
    simp only [Outline.readItems, bind_eq_ok] at h
    obtain ⟨v, hv, vs, hvs, -⟩ := h
    rw [Outline.skipItems, skip_of_readJson o hv]
    exact skipItems_of_readItems os hvs

theorem skipMembers_of_readMembers : ∀ (ms : List (Key × Outline)) {s : Scope}
    {es : List (String × Json)}, Outline.readMembers s ms = .ok es →
      Outline.skipMembers ms = .ok ()
  | [], _, _, _ => rfl
  | (key, o) :: ms, s, es, h => by
    simp only [Outline.readMembers, bind_eq_ok] at h
    obtain ⟨k, -, v, hv, es, hes, -⟩ := h
    rw [Outline.skipMembers, skip_of_readJson o hv]
    exact skipMembers_of_readMembers ms hes

end

/-! ## Values read again -/

mutual

/-- A value that was read whole can be read whole once more. -/
theorem exists_readJson_ofJson : ∀ v : Json, ∃ w, (Outline.ofJson v).readJson .value = .ok w
  | .null => ⟨_, rfl⟩
  | .bool _ => ⟨_, rfl⟩
  | .number _ => ⟨_, rfl⟩
  | .string _ => ⟨_, rfl⟩
  | .array vs => by
    obtain ⟨ws, hws⟩ := exists_readItems_ofItems vs
    refine ⟨.array ws, readJson_array_eq_ok.mpr ⟨.value, ws, rfl, ?_, rfl, rfl⟩⟩
    exact readItems_eq_ok.mp hws
  | .object es => by
    obtain ⟨fs, hfs⟩ := exists_readMembers_ofMembers es
    refine ⟨.object (Entries.sorted fs), readJson_object_eq_ok.mpr ⟨.value, fs, rfl, ?_, rfl, rfl⟩⟩
    exact readMembers_eq_ok.mp hfs

theorem exists_readItems_ofItems : ∀ vs : List Json,
    ∃ ws, Outline.readItems .value (Outline.ofItems vs) = .ok ws
  | [] => ⟨[], rfl⟩
  | v :: vs => by
    obtain ⟨w, hw⟩ := exists_readJson_ofJson v
    obtain ⟨ws, hws⟩ := exists_readItems_ofItems vs
    exact ⟨w :: ws, by rw [Outline.ofItems, Outline.readItems, hw, hws]; rfl⟩

theorem exists_readMembers_ofMembers : ∀ es : List (String × Json),
    ∃ fs, Outline.readMembers .value (Outline.ofMembers es) = .ok fs
  | [] => ⟨[], rfl⟩
  | (k, v) :: es => by
    obtain ⟨w, hw⟩ := exists_readJson_ofJson v
    obtain ⟨fs, hfs⟩ := exists_readMembers_ofMembers es
    exact ⟨(k, w) :: fs, by rw [Outline.ofMembers, Outline.readMembers, hw, hfs]; rfl⟩

end

mutual

/-- What is read whole from a text is the same whatever the room. -/
theorem readJson_value : ∀ (o : Outline) {s : Scope} {v : Json}, o.readJson s = .ok v →
    o.readJson .value = .ok v
  | .null, _, _, h => h
  | .bool _, _, _, h => h
  | .number _, _, _, h => h
  | .string _, _, _, h => h
  | .raw _, _, _, h => h
  | .broken _, _, _, h => h
  | .array os e, s, v, h => by
    simp only [Outline.readJson, bind_eq_ok] at h ⊢
    obtain ⟨inner, -, vs, hvs, u, he, hv⟩ := h
    exact ⟨.value, rfl, vs, readItems_value os hvs, u, he, hv⟩
  | .object ms e, s, v, h => by
    simp only [Outline.readJson, bind_eq_ok] at h ⊢
    obtain ⟨inner, -, es, hes, u, he, hv⟩ := h
    exact ⟨.value, rfl, es, readMembers_value ms hes, u, he, hv⟩

theorem readItems_value : ∀ (os : List Outline) {s : Scope} {vs : List Json},
    Outline.readItems s os = .ok vs → Outline.readItems .value os = .ok vs
  | [], _, _, h => h
  | o :: os, s, vs, h => by
    simp only [Outline.readItems, bind_eq_ok] at h ⊢
    obtain ⟨v, hv, vs, hvs, h⟩ := h
    exact ⟨v, readJson_value o hv, vs, readItems_value os hvs, h⟩

theorem readMembers_value : ∀ (ms : List (Key × Outline)) {s : Scope}
    {es : List (String × Json)}, Outline.readMembers s ms = .ok es →
      Outline.readMembers .value ms = .ok es
  | [], _, _, h => h
  | (key, o) :: ms, s, es, h => by
    simp only [Outline.readMembers, bind_eq_ok] at h ⊢
    obtain ⟨k, hk, v, hv, es, hes, h⟩ := h
    exact ⟨k, hk, v, readJson_value o hv, es, readMembers_value ms hes, h⟩

end

theorem skip_ofJson (v : Json) : (Outline.ofJson v).skip = .ok () := by
  obtain ⟨w, hw⟩ := exists_readJson_ofJson v
  exact skip_of_readJson _ hw

end Gateway.Json
