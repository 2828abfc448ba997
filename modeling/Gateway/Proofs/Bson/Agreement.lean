import Gateway.Proofs.Bson.Members
import Gateway.Proofs.Json.Agreement

/-!
# Values in conditions at once and by way of a value

Read by way of a value, a document has its entries in the order of their keys (`sorted`), and
otherwise a value in a condition is the same in both ways if both accept it. If one accepts it so
does the other, unless sorting the keys of an object in it puts a plain key behind a tag where
none was, or leaves none there (`agrees_read`). If all keys ascend as they stand, the values are the
same altogether (`agrees_read_of_keysAscend`).
-/

namespace Gateway.Bson

open Gateway.Json

variable {P : Prop} {s : Scope} {o : Outline} {v : Json}

/-! ## Bodies under a tag -/

theorem agrees_readIdentifier (o : Outline) : Agrees P readIdentifier id o := by
  refine agrees_leaf (fun s ho => ?_) (fun s os e => ?_) fun s ms e => ?_
  · cases o <;> first | rfl | exact ho.elim
  · rcases hinner : s.enter with fault | inner
    · exact ⟨fault, by rw [readIdentifier, hinner]; rfl⟩
    · exact ⟨_, by rw [readIdentifier, hinner]; rfl⟩
  · rcases hinner : s.enter with fault | inner
    · exact ⟨fault, by rw [readIdentifier, hinner]; rfl⟩
    · exact ⟨_, by rw [readIdentifier, hinner]; rfl⟩

theorem agrees_readBytes (o : Outline) : Agrees P (fun s o => o.readBytes s) id o := by
  intro s v hs hv
  cases o with
  | array os e =>
    obtain ⟨inner, vs, hinner, hvs, rfl, hlist⟩ := ofJson_array hv
    rw [hlist]
    simp only [Outline.readBytes, hinner]
    have hitems : Mirrors P (List.map id) (os.mapM (Outline.readNatural 255 "u8"))
        ((vs.map Outline.ofJson).mapM (Outline.readNatural 255 "u8")) := by
      rw [List.mapM_map]
      have hsource : inner.source ≠ .table := by rwa [Scope.enter_source hinner]
      exact .mapM hvs fun x w _ hw => agrees_readNatural 255 "u8" x inner w hsource hw
    rw [List.map_id_fun] at hitems
    exact hitems.bind fun ns _ => .refl _
  | object ms e =>
    obtain ⟨inner, es, -, -, -, rfl⟩ := readJson_object_eq_ok.mp hv
    exact .error _ _
  | raw | broken => cases hv
  | _ =>
    rw [ofJson_leaf hv trivial]
    exact .refl _

theorem isApart_pairShape {α β : Type} (title first second : String)
    (readFirst : Scope → Outline → Except Fault α) (readSecond : Scope → Outline → Except Fault β) :
    (pairShape title first second readFirst readSecond).IsApart :=
  Shape.isApart_of_pairwise (by simp [pairShape, Field.separate_of_put])

theorem agrees_pairShape {α β : Type} {title first second : String}
    {readFirst : Scope → Outline → Except Fault α} {readSecond : Scope → Outline → Except Fault β}
    (hfirst : ∀ o : Outline, o.KeysDistinct → Agrees P readFirst id o)
    (hsecond : ∀ o : Outline, o.KeysDistinct → Agrees P readSecond id o) (ho : o.KeysDistinct) :
    Agrees P (pairShape title first second readFirst readSecond).read id o := by
  refine Shape.read_agrees (Shape.carries_id _) (isApart_pairShape _ _ _ _ _) ho fun f hf x hx => ?_
  have hkeys : x.KeysDistinct := hx.everyObject ho
  simp only [pairShape, List.mem_cons, List.not_mem_nil, or_false] at hf
  rcases hf with rfl | rfl
  · exact Field.agrees_of_map (fun _ _ _ => rfl) (hfirst x hkeys) fun _ _ => rfl
  · exact Field.agrees_of_map (fun _ _ _ => rfl) (hsecond x hkeys) fun _ _ => rfl

theorem agrees_textShape {title name : String} (ho : o.KeysDistinct) :
    Agrees P (textShape title name).read id o := by
  have hapart : (textShape title name).IsApart :=
    Shape.isApart_of_pairwise (by simp [textShape])
  refine Shape.read_agrees (Shape.carries_id _) hapart ho fun f hf x hx => ?_
  simp only [textShape, List.mem_singleton] at hf
  subst hf
  exact Field.agrees_of_map (fun _ _ _ => rfl) (agrees_readString x) fun _ _ => rfl

theorem agrees_readDate (ho : o.KeysDistinct) : Agrees P readDate id o := by
  intro s v hs hv
  obtain ⟨w, hw⟩ := exists_readJson_ofJson v
  have htext : Mirrors True id ((textShape "Int64" "$numberLong").read .value o)
      ((textShape "Int64" "$numberLong").read .value (.ofJson v)) :=
    agrees_textShape ho .value v nofun (readJson_value o hv)
  unfold readDate
  rw [hv, hw]
  generalize (textShape "Int64" "$numberLong").read .value o = x at htext
  generalize (textShape "Int64" "$numberLong").read .value (.ofJson v) = y at htext
  cases htext with
  | left h | right h => exact absurd trivial h
  | ok text => exact .refl _
  | error fault fault' =>
    cases o with
    | array os e =>
      obtain ⟨inner, vs, -, -, -, hlist⟩ := ofJson_array hv
      rw [hlist]
      exact .error _ _
    | object ms e =>
      obtain ⟨inner, es, -, -, -, rfl⟩ := readJson_object_eq_ok.mp hv
      exact .error _ _
    | _ =>
      rw [ofJson_leaf hv trivial]
      exact .refl _

/-- The body under a tag agrees. -/
theorem agrees_tagged {tag : String} {body : Scope → Outline → Except Fault Bson}
    (h : tagged tag = some body) (ho : o.KeysDistinct) : Agrees P body id o := by
  have htext : ∀ (read : String → Except Fault Bson) (o : Outline),
      Agrees P (fun _ => readTextBody read) id o := fun read o => (agrees_readString o).bind read
  have hword : ∀ o : Outline, Agrees P (fun _ => readWord32) id o :=
    fun o => (agrees_readNatural _ _ o).map fun _ => rfl
  have hstring : ∀ o : Outline, o.KeysDistinct → Agrees P (fun _ => Outline.readString) id o :=
    fun o _ => agrees_readString o
  unfold tagged at h
  split at h <;> cases h
  · exact (agrees_readIdentifier o).map fun _ => rfl
  · exact (agrees_readString o).map fun _ => rfl
  · exact htext _ o
  · exact htext _ o
  · exact htext _ o
  · exact htext _ o
  · exact (agrees_readBytes o).bind _
  · exact (agrees_pairShape hstring hstring ho).bind _
  · exact htext _ o
  · exact (agrees_pairShape (fun o _ => hword o) (fun o _ => hword o) ho).map fun _ => rfl
  · exact (agrees_pairShape hstring hstring ho).bind _
  · exact (agrees_pairShape hstring (fun o ho => agrees_textShape ho) ho).bind _
  · exact agrees_readDate ho
  · exact (agrees_readNatural _ _ o).bind _
  · exact (agrees_readNatural _ _ o).bind _
  · exact (agrees_readBool o).bind _

/-! ## Sorted documents -/

mutual

/-- A value with the entries of all its documents sorted by key. -/
def sorted : Bson → Bson
  | .array vs => .array (sortedItems vs)
  | .document es => .document (Entries.sorted (sortedEntries es))
  | .codeWithScope source scope => .codeWithScope source (Entries.sorted (sortedEntries scope))
  | v => v

def sortedItems : List Bson → List Bson
  | [] => []
  | v :: vs => sorted v :: sortedItems vs

/-- Entries in their order, each with a sorted value. -/
def sortedEntries : Document → Document
  | [] => []
  | (k, v) :: es => (k, sorted v) :: sortedEntries es

end

theorem sortedItems_eq_map (vs : List Bson) : sortedItems vs = vs.map sorted := by
  induction vs with
  | nil => rfl
  | cons v vs ih => rw [sortedItems, ih, List.map_cons]

theorem sorted_of_isFlat {b : Bson} (h : b.IsFlat) : sorted b = b := by
  cases b with
  | array | document | codeWithScope => exact h.elim
  | _ => rfl

/-- Sorted below the entries at the top, which keep their order. -/
def sortedInside : Bson → Bson
  | .document es => .document (sortedEntries es)
  | b => sorted b

theorem arranged_sortedInside (b : Bson) : b.sortedInside.arranged = b.sorted := by
  cases b <;> rfl

theorem sortedInside_of_isFlat {b : Bson} (h : b.IsFlat) : sortedInside b = b := by
  cases b with
  | array | document | codeWithScope => exact h.elim
  | _ => rfl

theorem sortedEntries_insert (k : String) (b : Bson) (es : Document) :
    sortedEntries (Entries.insert k b es) = Entries.insert k (sorted b) (sortedEntries es) := by
  induction es with
  | nil => rfl
  | cons e es ih =>
    obtain ⟨k', b'⟩ := e
    rw [sortedEntries, Entries.insert, Entries.insert]
    split
    · rfl
    · rw [sortedEntries, ih]

/-! ## Members and those of a value -/

/-- Members, and at the same places those of the value that was read from them. -/
def WholeEntries (s : Scope) : List (String × Outline) → List (String × Outline) → Prop :=
  List.Forall₂ fun u w => u.1 = w.1 ∧ ∃ v, u.2.readJson s = .ok v ∧ w.2 = .ofJson v

/-- The entries of a value as members. -/
def asMembers (es : List (String × Json)) : List (String × Outline) :=
  es.map fun e => (e.1, .ofJson e.2)

theorem keys_asMembers (es : List (String × Json)) :
    Entries.keys (asMembers es) = Entries.keys es := by
  simp [asMembers, Entries.keys, Function.comp_def]

theorem exists_wholeEntries {ms : List (Key × Outline)} {es : List (String × Json)}
    (h : WholeMembers s ms es) : ∃ us, ms = label us ∧ WholeEntries s us (asMembers es) := by
  induction h with
  | nil => exact ⟨[], rfl, .nil⟩
  | @cons m e ms es hm _ ih =>
    obtain ⟨key, o⟩ := m
    obtain ⟨us, rfl, hus⟩ := ih
    obtain ⟨rfl, hread⟩ := hm
    exact ⟨(e.1, o) :: us, rfl, .cons ⟨rfl, e.2, hread, rfl⟩ hus⟩

namespace WholeEntries

variable {us ws : List (String × Outline)}

theorem keys_eq (h : WholeEntries s us ws) : Entries.keys us = Entries.keys ws := by
  induction h with
  | nil => rfl
  | cons hu _ ih => rw [Entries.keys_cons, Entries.keys_cons, ih, hu.1]

theorem exists_readJson (h : WholeEntries s us ws) {u : String × Outline} (hu : u ∈ us) :
    ∃ v, u.2.readJson s = .ok v := by
  induction h with
  | nil => cases hu
  | cons hfirst _ ih =>
    rcases List.mem_cons.mp hu with rfl | hu
    · obtain ⟨-, v, hv, -⟩ := hfirst
      exact ⟨v, hv⟩
    · exact ih hu
end WholeEntries

theorem agrees_readDocument (h : Agrees P Bson.read sorted o) :
    Agrees P readDocument (fun es => Entries.sorted (sortedEntries es)) o := by
  have hobject : ∀ s ms e, readDocument s (.object ms e) =
      Bson.read s (.object ms e) >>= asDocument := by
    intro s ms e
    simp only [readDocument, Bson.read, bind_assoc]
  intro s v hs hv
  cases o with
  | array os e =>
    obtain ⟨inner, vs, -, -, -, hlist⟩ := ofJson_array hv
    rw [hlist]
    exact .error _ _
  | object ms e =>
    have hmirrors := h s v hs hv
    obtain ⟨inner, es, -, -, -, rfl⟩ := readJson_object_eq_ok.mp hv
    rw [Outline.ofJson] at hmirrors ⊢
    rw [hobject, hobject]
    refine hmirrors.bind fun b _ => ?_
    cases b with
    | document es => exact .ok (g := fun es => Entries.sorted (sortedEntries es)) es
    | _ => exact .error _ _
  | _ =>
    rw [ofJson_leaf hv trivial]
    exact .error _ _

/-- Members agree in the order that they have, up to the order inside. -/
theorem readMembers_mirrors (hs : s.source ≠ .table) {us ws : List (String × Outline)}
    (h : WholeEntries s us ws) (hkeys : ∀ u ∈ us, u.2.KeysDistinct)
    (hread : ∀ u ∈ us, Agrees P Bson.read sorted u.2) {total total' : Nat} (doc : Document) :
    Mirrors P sortedInside (readMembers s total .closed doc (label us))
      (readMembers .value total' .closed (sortedEntries doc) (label ws)) := by
  have hvalue : Scope.value.source ≠ .table := nofun
  have hleave : ∀ {us ws}, WholeEntries s us ws →
      Mirrors P id (s.leaveObject (label us).length total .closed)
        (Scope.value.leaveObject (label ws).length total' .closed) := fun h =>
    .of_eq_ok_iff fun _ => by
      simp [leaveObject_closed hs, leaveObject_closed hvalue, label, h.length_eq]
  induction h generalizing doc with
  | nil => exact .ok (g := sortedInside) (.document doc)
  | @cons u w us ws hu hus ih =>
    obtain ⟨k, o⟩ := u
    obtain ⟨k', w⟩ := w
    obtain ⟨rfl, v, hv, rfl⟩ : k = k' ∧ ∃ v, o.readJson s = .ok v ∧ w = .ofJson v := hu
    rw [List.forall_mem_cons] at hkeys hread
    show Mirrors P sortedInside (readMembers s total .closed doc ((.ok k, o) :: label us))
      (readMembers .value total' .closed _ ((.ok k, .ofJson v) :: label ws))
    rw [readMembers, readMembers]
    simp only [whole_bind]
    -- code and its scope are read together, every other member on its own
    by_cases hcode : k = "$code"
    · simp only [if_pos hcode]
      refine (agrees_readString o s v hs hv).bind fun source _ => ?_
      rcases hus with _ | ⟨⟨hkey, v', hv', hw'⟩, hrest⟩
      · exact .ok (g := sortedInside) (.code source)
      rename_i u' w' us ws
      rw [List.forall_mem_cons] at hread
      show Mirrors P sortedInside (if u'.1 = "$scope" then _ else _)
        (if w'.1 = "$scope" then _ else _)
      rw [← hkey]
      by_cases hscope : u'.1 = "$scope"
      · rw [if_pos hscope, if_pos hscope, hw']
        refine (agrees_readDocument hread.2.1 s v' hs hv').bind fun scope _ => ?_
        exact (hleave hrest).bind fun _ _ => .ok (g := sortedInside) (.codeWithScope source scope)
      · rw [if_neg hscope, if_neg hscope]
        exact .error _ _
    by_cases hscope : k = "$scope"
    · simp only [if_neg hcode, if_pos hscope]
      refine (agrees_readDocument hread.1 s v hs hv).bind fun scope _ => ?_
      rcases hus with _ | ⟨⟨hkey, v', hv', hw'⟩, hrest⟩
      · exact .error _ _
      rename_i u' w' us ws
      show Mirrors P sortedInside (if u'.1 = "$code" then _ else _)
        (if w'.1 = "$code" then _ else _)
      rw [← hkey]
      by_cases hcode' : u'.1 = "$code"
      · rw [if_pos hcode', if_pos hcode', hw']
        refine (agrees_readString u'.2 s v' hs hv').bind fun source _ => ?_
        exact (hleave hrest).bind fun _ _ => .ok (g := sortedInside) (.codeWithScope source scope)
      · rw [if_neg hcode', if_neg hcode']
        exact .error _ _
    simp only [if_neg hcode, if_neg hscope]
    rcases hbody : tagged k with _ | body
    · -- what is in the document already is sorted inside, too
      refine (hread.1 s v hs hv).bind fun b _ => ?_
      rw [← sortedEntries_insert]
      exact ih hkeys.2 hread.2 _
    · refine (agrees_tagged hbody hkeys.1 s v hs hv).bind fun b hb => ?_
      refine (hleave hus).bind fun _ _ => ?_
      have hok : Mirrors P sortedInside (.ok b : Except Fault Bson) (.ok (sortedInside b)) := .ok b
      rwa [sortedInside_of_isFlat (isFlat_of_tagged hbody hb)] at hok

/-! ## Values -/

/-- An object is read by its members, at once in their order and by way of a value in that of
their keys. -/
theorem read_object_eq_readMembers {ms : List (Key × Outline)} {e : Ending}
    (hs : s.source ≠ .table) (hv : (Outline.object ms e).readJson s = .ok v)
    (hkeys : (Outline.object ms e).KeysDistinct) :
    ∃ inner us ws fs, inner.source ≠ .table ∧ ms = label us ∧ WholeEntries inner us ws ∧
      fs.Perm ws ∧ Entries.Ascending fs ∧ ∃ total total',
        Bson.read s (.object ms e) = readMembers inner total .closed [] (label us) ∧
        Bson.read .value (.ofJson v) = readMembers .value total' .closed [] (label fs) := by
  obtain ⟨inner, es, fs, hinner, hes, rfl, hperm, hfs, hobject⟩ := ofJson_object hv hkeys
  obtain ⟨us, rfl, hus⟩ := exists_wholeEntries hes
  have hsource : inner.source ≠ .table := by rwa [Scope.enter_source hinner]
  have hasc : Entries.Ascending (asMembers fs) := by
    rwa [Entries.Ascending, keys_asMembers]
  have hlabel : fs.map (fun f => ((.ok f.1, .ofJson f.2) : Key × Outline)) =
      label (asMembers fs) := by
    simp [label, asMembers]
  refine ⟨inner, us, asMembers es, asMembers fs, hsource, rfl, hus, hperm.map _, hasc,
    (label us).length, (label (asMembers fs)).length, ?_, ?_⟩
  · rw [Bson.read, hinner]
    rfl
  · rw [hobject, hlabel]
    rfl

/-- An object agrees when its members do. Where both ways accept it all its tags are at the end,
before the keys are sorted and after. -/
theorem agrees_object {ms : List (Key × Outline)} {e : Ending}
    (hkeys : (Outline.object ms e).KeysDistinct)
    (hread : ∀ m ∈ ms, Agrees P Bson.read sorted m.2) (htags : P → KeepsTags (names ms)) :
    Agrees P Bson.read sorted (.object ms e) := by
  intro s v hs hv
  obtain ⟨inner, us, ws, fs, hsource, rfl, hus, hperm, hfs, total, total', hat, hby⟩ :=
    read_object_eq_readMembers hs hv hkeys
  have hvalue : Scope.value.source ≠ .table := nofun
  rw [names_label, hus.keys_eq] at htags
  have hnodup : (Entries.keys us).Nodup := by
    rw [← names_label]
    exact hkeys.object.1
  have htext : ∀ a, Bson.read s (.object (label us) e) = .ok a ↔ Reads inner us a := fun a => by
    rw [hat, readMembers_eq_ok hsource hnodup]
  have hsorted : ∀ c, Bson.read .value (.ofJson v) = .ok c ↔ Reads .value fs c := fun c => by
    rw [hby, readMembers_eq_ok hvalue hfs.nodup]
  -- between the two, the values in the order of the text
  have hbetween : ∀ b, readMembers .value total' .closed [] (label ws) = .ok b ↔
      Reads .value ws b := fun b => readMembers_eq_ok hvalue (hus.keys_eq ▸ hnodup)
  have hmirrors : Mirrors P sortedInside (Bson.read s (.object (label us) e))
      (readMembers .value total' .closed [] (label ws)) := by
    rw [hat]
    exact readMembers_mirrors hsource hus
      (fun u hu => hkeys.object.2 _ (List.mem_map_of_mem hu))
      (fun u hu => hread _ (List.mem_map_of_mem hu)) []
  have hplain : ∀ {a}, Reads inner us a → ¬ PlainBehind (Entries.keys ws) := fun h =>
    hus.keys_eq ▸ h.not_plainBehind
  refine .intro (fun a c ha hc => ?_) fun hP => ?_
  · have hc := (hsorted c).mp hc
    obtain ⟨b, hb, rfl⟩ := (reads_sorted_iff hperm hfs hc.not_plainBehind
      (hplain ((htext a).mp ha))).mp hc
    rw [hmirrors.same ha ((hbetween b).mpr hb), arranged_sortedInside]
  · have hbehind := plainBehind_perm hperm hfs (htags hP)
    constructor
    · rintro ⟨a, ha⟩
      have hws := hplain ((htext a).mp ha)
      obtain ⟨b, hb⟩ := (hmirrors.both hP).mp ⟨a, ha⟩
      refine ⟨b.arranged, (hsorted _).mpr ?_⟩
      exact (reads_sorted_iff hperm hfs (mt hbehind.mp hws) hws).mpr ⟨b, (hbetween b).mp hb, rfl⟩
    · rintro ⟨c, hc⟩
      have hc := (hsorted c).mp hc
      have hfs' := hc.not_plainBehind
      obtain ⟨b, hb, -⟩ := (reads_sorted_iff hperm hfs hfs' (mt hbehind.mpr hfs')).mp hc
      exact (hmirrors.both hP).mpr ⟨b, (hbetween b).mpr hb⟩

theorem agrees_array {os : List Outline} {e : Ending}
    (hread : ∀ o ∈ os, Agrees P Bson.read sorted o) : Agrees P Bson.read sorted (.array os e) := by
  intro s v hs hv
  obtain ⟨inner, vs, hinner, hvs, rfl, hlist⟩ := ofJson_array hv
  have hsource : inner.source ≠ .table := by rwa [Scope.enter_source hinner]
  have hitems : Mirrors P (List.map sorted) (os.mapM (Bson.read inner))
      ((vs.map Outline.ofJson).mapM (Bson.read .value)) := by
    rw [List.mapM_map]
    exact .mapM hvs fun o v ho hv => hread o ho inner v hsource hv
  rw [hlist]
  simp only [Bson.read, readItems_eq_mapM, hinner]
  refine hitems.bind fun bs _ => ?_
  rw [← sortedItems_eq_map]
  exact .ok (g := sorted) (.array bs)

theorem sorted_of_readLeaf (ho : o.IsLeaf) {b : Bson} (h : Bson.read s o = .ok b) :
    sorted b = b := by
  cases o with
  | number value =>
    obtain ⟨n, -, h⟩ := bind_eq_ok.mp h
    unfold ofNumber at h
    repeat' split at h
    all_goals
      cases h
      try rfl
  | array | object => exact ho.elim
  | raw | broken => cases h
  | _ =>
    cases h
    rfl

theorem agrees_readLeaf (ho : o.IsLeaf) : Agrees P Bson.read sorted o := by
  intro s v hs hv
  have hscope : Bson.read .value o = Bson.read s o := by
    cases o with
    | array | object => exact ho.elim
    | _ => rfl
  rw [ofJson_leaf hv ho, hscope]
  rcases hread : Bson.read s o with fault | b
  · exact .error _ _
  · have hok : Mirrors P sorted (.ok b : Except Fault Bson) (.ok (sorted b)) := .ok b
    rwa [sorted_of_readLeaf ho hread] at hok

mutual

/-- **A value in a condition agrees up to the order of its entries.** If in none of its objects
sorting the keys puts a plain key behind a tag or leaves none there, it is accepted in both ways or
in none. -/
theorem agrees_read : ∀ o : Outline, o.KeysDistinct →
    Agrees (o.EveryObject KeepsTags) Bson.read sorted o
  | .null, _ => agrees_readLeaf trivial
  | .bool _, _ => agrees_readLeaf trivial
  | .number _, _ => agrees_readLeaf trivial
  | .string _, _ => agrees_readLeaf trivial
  | .raw _, _ => agrees_readLeaf trivial
  | .broken _, _ => agrees_readLeaf trivial
  | .array os _, hkeys => agrees_array fun x hx =>
    (agrees_readItems os hkeys.array x hx).imp fun h => h.array x hx
  | .object ms _, hkeys => agrees_object hkeys
    (fun m hm => (agrees_readValues ms hkeys.object.2 m hm).imp fun h => h.object.2 m hm)
    fun h => h.object.1

theorem agrees_readItems : ∀ os : List Outline, (∀ o ∈ os, o.KeysDistinct) →
    ∀ o ∈ os, Agrees (o.EveryObject KeepsTags) Bson.read sorted o
  | [], _ => nofun
  | o :: os, hkeys => by
    rw [List.forall_mem_cons] at hkeys ⊢
    exact ⟨agrees_read o hkeys.1, agrees_readItems os hkeys.2⟩

theorem agrees_readValues : ∀ ms : List (Key × Outline), (∀ m ∈ ms, m.2.KeysDistinct) →
    ∀ m ∈ ms, Agrees (m.2.EveryObject KeepsTags) Bson.read sorted m.2
  | [], _ => nofun
  | (_, o) :: ms, hkeys => by
    rw [List.forall_mem_cons] at hkeys ⊢
    exact ⟨agrees_read o hkeys.1, agrees_readValues ms hkeys.2⟩

end

/-! ## Values in order -/

/-- What is read whole there is sorted already. -/
def GivesSorted (o : Outline) : Prop :=
  ∀ s v b, s.source ≠ .table → o.readJson s = .ok v → Bson.read s o = .ok b → sorted b = b

theorem sorted_of_asDocument {b : Bson} {es : Document} (hb : sorted b = b)
    (h : asDocument b = .ok es) : Entries.sorted (sortedEntries es) = es := by
  cases b with
  | document fs =>
    cases h
    exact document.inj hb
  | _ => cases h

theorem GivesSorted.readDocument (h : GivesSorted o) {es : Document} (hs : s.source ≠ .table)
    (hv : o.readJson s = .ok v) (hes : readDocument s o = .ok es) :
    Entries.sorted (sortedEntries es) = es := by
  cases o with
  | object ms e =>
    obtain ⟨inner, hinner, hes⟩ := bind_eq_ok.mp hes
    obtain ⟨b, hb, hes⟩ := bind_eq_ok.mp hes
    have hobject : Bson.read s (.object ms e) = .ok b := by
      rw [Bson.read, hinner]
      exact hb
    exact sorted_of_asDocument (h s v b hs hv hobject) hes
  | _ => cases hes

theorem sortedEntries_of_readEntry {us : List (String × Outline)} {es : Document}
    (h : us.mapM (readEntry s) = .ok es)
    (hread : ∀ u ∈ us, ∀ b, Bson.read s u.2 = .ok b → sorted b = b) : sortedEntries es = es := by
  have hall := forall₂_of_mapM_eq_ok h
  clear h
  induction hall with
  | nil => rfl
  | cons hu _ ih =>
    rw [List.forall_mem_cons] at hread
    obtain ⟨b, hb, rfl⟩ := map_eq_ok.mp hu
    rw [sortedEntries, hread.1 b hb, ih hread.2]

theorem givesSorted_object {ms : List (Key × Outline)} {e : Ending}
    (hkeys : (names ms).Pairwise (· < ·)) (hmembers : ∀ m ∈ ms, GivesSorted m.2) :
    GivesSorted (.object ms e) := by
  intro s v b hs hv hb
  obtain ⟨inner, es, hinner, hes, rfl, -⟩ := readJson_object_eq_ok.mp hv
  obtain ⟨us, rfl, hus⟩ := exists_wholeEntries hes
  have hsource : inner.source ≠ .table := by rwa [Scope.enter_source hinner]
  rw [names_label] at hkeys
  have hasc : Entries.Ascending us := hkeys
  have hread : ∀ u ∈ us, GivesSorted u.2 := fun u hu => hmembers _ (List.mem_map_of_mem hu)
  obtain ⟨fs, hfs, ⟨-, rfl⟩ | htagged⟩ := (read_object_eq_ok hinner hsource hasc.nodup).mp hb
  · have hentries : sortedEntries fs = fs := by
      refine sortedEntries_of_readEntry hfs fun u hu b hb => ?_
      have hmem : u ∈ us := (List.takeWhile_sublist _).subset hu
      obtain ⟨v, hv⟩ := hus.exists_readJson hmem
      exact hread u hmem inner v b hsource hv hb
    have hfasc : Entries.Ascending fs := by
      rw [Entries.Ascending, keys_of_readEntry hfs, keys_front]
      exact hkeys.sublist (List.takeWhile_sublist _)
    rw [sorted, hentries, Entries.sorted_of_ascending hfasc]
  · rcases htagged with ⟨_, htag, hbody⟩ | ⟨_, _, rfl⟩ | ⟨hback, -, hscope, rfl⟩
    · exact sorted_of_isFlat (isFlat_of_tagged htag hbody)
    · rfl
    · rename_i p source scope
      have hmem : ("$scope", p) ∈ us := by
        refine (List.dropWhile_sublist _).subset (?_ : ("$scope", p) ∈ back us)
        rcases hback with hback | hback <;> simp [hback]
      obtain ⟨v, hv⟩ := hus.exists_readJson hmem
      rw [sorted, (hread _ hmem).readDocument hsource hv hscope]

theorem givesSorted_array {os : List Outline} {e : Ending} (hitems : ∀ o ∈ os, GivesSorted o) :
    GivesSorted (.array os e) := by
  intro s v b hs hv hb
  obtain ⟨inner, vs, hinner, hvs, rfl, -⟩ := readJson_array_eq_ok.mp hv
  have hsource : inner.source ≠ .table := by rwa [Scope.enter_source hinner]
  simp only [Bson.read, readItems_eq_mapM, hinner] at hb
  obtain ⟨_, ⟨⟩, hrest⟩ := bind_eq_ok.mp hb
  obtain ⟨bs, hbs, ⟨⟩⟩ := bind_eq_ok.mp hrest
  suffices hsorted : sortedItems bs = bs by rw [sorted, hsorted]
  have hall := forall₂_of_mapM_eq_ok hbs
  clear hv hb hrest hbs
  induction hvs generalizing bs with
  | nil =>
    cases hall
    rfl
  | cons hw _ ih =>
    rw [List.forall_mem_cons] at hitems
    rcases hall with _ | ⟨ho, hall⟩
    rw [sortedItems, hitems.1 inner _ _ hsource hw ho, ih hitems.2 _ hall]

theorem givesSorted_leaf (ho : o.IsLeaf) : GivesSorted o :=
  fun _ _ _ _ _ => sorted_of_readLeaf ho

mutual

/-- A value whose keys ascend gives a sorted value. -/
theorem givesSorted : ∀ o : Outline, o.KeysAscend → GivesSorted o
  | .null, _ => givesSorted_leaf trivial
  | .bool _, _ => givesSorted_leaf trivial
  | .number _, _ => givesSorted_leaf trivial
  | .string _, _ => givesSorted_leaf trivial
  | .raw _, _ => givesSorted_leaf trivial
  | .broken _, _ => givesSorted_leaf trivial
  | .array os _, hkeys => givesSorted_array (givesSorted_items os hkeys.array)
  | .object ms _, hkeys =>
    givesSorted_object hkeys.object.1 (givesSorted_members ms hkeys.object.2)

theorem givesSorted_items : ∀ os : List Outline, (∀ o ∈ os, o.KeysAscend) →
    ∀ o ∈ os, GivesSorted o
  | [], _ => nofun
  | o :: os, hkeys => by
    rw [List.forall_mem_cons] at hkeys ⊢
    exact ⟨givesSorted o hkeys.1, givesSorted_items os hkeys.2⟩

theorem givesSorted_members : ∀ ms : List (Key × Outline), (∀ m ∈ ms, m.2.KeysAscend) →
    ∀ m ∈ ms, GivesSorted m.2
  | [], _ => nofun
  | (_, o) :: ms, hkeys => by
    rw [List.forall_mem_cons] at hkeys ⊢
    exact ⟨givesSorted o hkeys.1, givesSorted_members ms hkeys.2⟩

end

/-- **A value in a condition agrees** if in each of its objects the keys ascend. -/
theorem agrees_read_of_keysAscend (ho : o.KeysAscend) : Agrees P Bson.read id o := by
  intro s v hs hv
  have htags : o.EveryObject KeepsTags := ho.mono fun _ => keepsTags_of_ascending
  have hagrees := agrees_read o ho.keysDistinct s v hs hv
  refine .of_eq_ok_iff fun b' => (hagrees.eq_ok_iff htags b').trans ?_
  refine exists_congr fun b => and_congr_right fun hb => ?_
  rw [givesSorted o ho s v b hs hv hb, id]

end Gateway.Bson
