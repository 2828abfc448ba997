import Gateway.Bson.Reader
import Gateway.Proofs.Config.Accepted
import Gateway.Proofs.Json.Whole
import Mathlib.Data.List.Perm.Basic

/-!
# Objects in conditions

An object in a condition is a document, or a value that a tag among its keys decides. What stands
before the first tag (`front`) is read in any case. If there is no tag it makes the document, and
otherwise what stands from the tag on (`back`) makes the value alone (`read_object_eq_ok`).

A plain key behind a tag is refused (`Reads.not_plainBehind`), so it matters whether the keys are
sorted before. It does not if sorting them neither puts a plain key behind a tag nor leaves none
there (`KeepsTags`): then both parts only change their order (`front_back_perm`).
-/

namespace Gateway.Bson

open Gateway.Json

variable {s : Scope} {o : Outline}

/-! ## Tags -/

/-- A key that decides what an object is. -/
def isTag (k : String) : Bool := k = "$code" || k = "$scope" || (tagged k).isSome

/-- A value with no other inside. -/
def IsFlat : Bson → Prop
  | .array _ | .document _ | .codeWithScope _ _ => False
  | _ => True

theorem isFlat_of_readDate {b : Bson} (h : readDate s o = .ok b) : b.IsFlat := by
  unfold readDate at h
  obtain ⟨_, -, h⟩ := bind_eq_ok.mp h
  split at h
  · split at h <;> cases h
    trivial
  · split at h
    · unfold readInstantText at h
      split at h <;> cases h
      trivial
    · split at h <;> cases h
      trivial
    · cases h
      trivial
    · cases h

theorem isFlat_of_readEnd {value b : Bson} {expected : String}
    (h : readEnd value expected o = .ok b) (hvalue : value.IsFlat) : b.IsFlat := by
  obtain ⟨_, -, h⟩ := bind_eq_ok.mp h
  split at h <;> cases h
  exact hvalue

theorem isFlat_of_readTextBody {read : String → Except Fault Bson} {b : Bson}
    (hread : ∀ t b, read t = .ok b → b.IsFlat) (h : readTextBody read o = .ok b) :
    b.IsFlat := by
  obtain ⟨t, -, h⟩ := bind_eq_ok.mp h
  exact hread t b h

/-- The body of a tag is no list and holds no document. -/
theorem isFlat_of_tagged {tag : String} {body : Scope → Outline → Except Fault Bson}
    (htag : tagged tag = some body) {b : Bson} (h : body s o = .ok b) : b.IsFlat := by
  unfold tagged at htag
  split at htag <;> cases htag
  · obtain ⟨_, -, rfl⟩ := map_eq_ok.mp h
    trivial
  · obtain ⟨_, -, rfl⟩ := map_eq_ok.mp h
    trivial
  · refine isFlat_of_readTextBody (fun t b ht => ?_) h
    unfold readInt32 at ht
    split at ht <;> cases ht
    trivial
  · refine isFlat_of_readTextBody (fun t b ht => ?_) h
    unfold readInt64 at ht
    split at ht <;> cases ht
    trivial
  · refine isFlat_of_readTextBody (fun t b ht => ?_) h
    unfold readDoubleText at ht
    repeat' split at ht
    all_goals
      cases ht
      try trivial
  · refine isFlat_of_readTextBody (fun t b ht => ?_) h
    unfold readDecimal at ht
    split at ht <;> cases ht
    trivial
  · obtain ⟨bytes, -, h⟩ := bind_eq_ok.mp h
    unfold readDecimalBytes at h
    split at h <;> cases h
    trivial
  · obtain ⟨_, -, h⟩ := bind_eq_ok.mp h
    unfold readBinary at h
    repeat' split at h
    all_goals
      cases h
      try trivial
  · refine isFlat_of_readTextBody (fun t b ht => ?_) h
    unfold readUuid at ht
    split at ht <;> cases ht
    trivial
  · obtain ⟨_, -, rfl⟩ := map_eq_ok.mp h
    trivial
  · obtain ⟨_, -, h⟩ := bind_eq_ok.mp h
    simp only [readRegex] at h
    repeat' split at h
    all_goals
      cases h
      try trivial
  · obtain ⟨_, -, h⟩ := bind_eq_ok.mp h
    obtain ⟨_, -, h⟩ := bind_eq_ok.mp h
    cases h
    trivial
  · exact isFlat_of_readDate h
  · exact isFlat_of_readEnd h trivial
  · exact isFlat_of_readEnd h trivial
  · obtain ⟨_, -, h⟩ := bind_eq_ok.mp h
    split at h <;> cases h
    trivial

/-! ## Members -/

/-- Members with their keys as they can be read. -/
def label (us : List (String × Outline)) : List (Key × Outline) := us.map fun u => (.ok u.1, u.2)

/-- The members in front of the first tag. -/
def front {α : Type} (us : List (String × α)) : List (String × α) :=
  us.takeWhile fun u => !isTag u.1

/-- The members from the first tag on. -/
def back {α : Type} (us : List (String × α)) : List (String × α) :=
  us.dropWhile fun u => !isTag u.1

def readEntry (s : Scope) (u : String × Outline) : Except Fault (String × Bson) :=
  (Bson.read s u.2).map fun b => (u.1, b)

/-- Members from a tag on that make a value: one tag alone, or code and its scope in either
order. -/
inductive ReadsTagged (s : Scope) (us : List (String × Outline)) (b : Bson) : Prop
  | body {tag : String} {body : Scope → Outline → Except Fault Bson} {o : Outline}
    (hus : us = [(tag, o)]) (htag : tagged tag = some body) (h : body s o = .ok b)
  | code {o : Outline} {source : String} (hus : us = [("$code", o)])
    (h : o.readString = .ok source) (hb : b = .code source)
  | codeWithScope {o p : Outline} {source : String} {scope : Document}
    (hus : us = [("$code", o), ("$scope", p)] ∨ us = [("$scope", p), ("$code", o)])
    (h : o.readString = .ok source) (hscope : readDocument s p = .ok scope)
    (hb : b = .codeWithScope source scope)

/-- Members that make a value: a document if no tag is among them, and otherwise what is from
the first tag on, when all before it can be read. -/
def Reads (s : Scope) (us : List (String × Outline)) (b : Bson) : Prop :=
  ∃ es, (front us).mapM (readEntry s) = .ok es ∧
    (back us = [] ∧ b = .document es ∨ ReadsTagged s (back us) b)

theorem front_append_back {α : Type} (us : List (String × α)) : front us ++ back us = us :=
  List.takeWhile_append_dropWhile

theorem leaveObject_closed (hs : s.source ≠ .table) {left total : Nat} {u : Unit} :
    s.leaveObject left total .closed = .ok u ↔ left = 0 := by
  rcases s with ⟨_ | _ | _, room⟩
  · simp [Scope.leaveObject, Ending.leaveObject]
  · simp [Scope.leaveObject]
  · exact absurd rfl hs

theorem readMembers_plain {k : String} (hk : isTag k = false) (total : Nat) (e : Ending)
    (doc : Document) (ms : List (Key × Outline)) :
    readMembers s total e doc ((.ok k, o) :: ms) =
      Bson.read s o >>= fun b => readMembers s total e (Entries.insert k b doc) ms := by
  simp only [isTag, Bool.or_eq_false_iff, decide_eq_false_iff_not, Option.isSome_eq_false_iff,
    Option.isNone_iff_eq_none] at hk
  obtain ⟨⟨hcode, hscope⟩, hbody⟩ := hk
  rw [readMembers]
  simp only [whole_bind, if_neg hcode, if_neg hscope, hbody]

theorem readMembers_front {total : Nat} {e : Ending} {ms : List (Key × Outline)}
    {us : List (String × Outline)} (hplain : ∀ u ∈ us, isTag u.1 = false) {doc : Document}
    (hkeys : (Entries.keys doc ++ Entries.keys us).Nodup) :
    readMembers s total e doc (label us ++ ms) =
      us.mapM (readEntry s) >>= fun es => readMembers s total e (doc ++ es) ms := by
  induction us generalizing doc with
  | nil => simp [label]
  | cons u us ih =>
    obtain ⟨k, o⟩ := u
    obtain ⟨hk, hplain⟩ := List.forall_mem_cons.mp hplain
    have hnew : k ∉ Entries.keys doc := fun hmem =>
      (List.nodup_append.mp hkeys).2.2 k hmem k List.mem_cons_self rfl
    have hlabel : label ((k, o) :: us) ++ ms = (.ok k, o) :: (label us ++ ms) := rfl
    rw [hlabel, readMembers_plain hk, List.mapM_cons, readEntry]
    rcases Bson.read s o with fault | b
    · rfl
    · have hdoc : (Entries.keys (doc ++ [(k, b)]) ++ Entries.keys us).Nodup := by
        simpa [Entries.keys] using hkeys
      show readMembers s total e (Entries.insert k b doc) (label us ++ ms) = _
      rw [Entries.insert_of_notMem hnew, ih hplain hdoc]
      rcases us.mapM (readEntry s) with fault | es
      · rfl
      · show readMembers s total e (doc ++ [(k, b)] ++ es) ms =
          readMembers s total e (doc ++ (k, b) :: es) ms
        rw [List.append_assoc, List.singleton_append]

/-! ### From a tag on -/

section Tagged

variable {total : Nat} {doc : Document} {us : List (String × Outline)} {b : Bson}

theorem readMembers_code (hs : s.source ≠ .table) :
    readMembers s total .closed doc ((.ok "$code", o) :: label us) = .ok b ↔
      ReadsTagged s (("$code", o) :: us) b := by
  rw [readMembers]
  simp only [whole_bind, if_true]
  constructor
  · intro h
    obtain ⟨source, hsource, h⟩ := bind_eq_ok.mp h
    rcases us with _ | ⟨⟨k, p⟩, us⟩
    · cases h
      exact .code rfl hsource rfl
    · change (if k = "$scope" then _ else _) = _ at h
      split at h
      · rename_i hk
        obtain ⟨scope, hscope, h⟩ := bind_eq_ok.mp h
        obtain ⟨_, hleave, hb⟩ := bind_eq_ok.mp h
        obtain rfl : us = [] := by
          simpa [label] using (leaveObject_closed hs).mp hleave
        cases hb
        exact .codeWithScope (.inl (by rw [hk])) hsource hscope rfl
      · cases h
  · rintro (⟨hus, htag, -⟩ | ⟨hus, h, rfl⟩ | ⟨hus | hus, h, hscope, rfl⟩)
    · obtain ⟨rfl, -⟩ := Prod.mk.inj (List.cons.inj hus).1
      cases htag
    · obtain ⟨hhead, rfl⟩ := List.cons.inj hus
      obtain ⟨-, rfl⟩ := Prod.mk.inj hhead
      rw [h]
      rfl
    · obtain ⟨hhead, rfl⟩ := List.cons.inj hus
      obtain ⟨-, rfl⟩ := Prod.mk.inj hhead
      have hleave : s.leaveObject (label []).length total .closed = .ok () :=
        (leaveObject_closed hs).mpr rfl
      refine bind_eq_ok.mpr ⟨_, h, bind_eq_ok.mpr ⟨"$scope", rfl, ?_⟩⟩
      exact bind_eq_ok.mpr ⟨_, hscope, bind_eq_ok.mpr ⟨(), hleave, rfl⟩⟩
    · obtain ⟨hhead, -⟩ := List.cons.inj hus
      exact absurd (Prod.mk.inj hhead).1 (by decide)

theorem readMembers_scope (hs : s.source ≠ .table) :
    readMembers s total .closed doc ((.ok "$scope", o) :: label us) = .ok b ↔
      ReadsTagged s (("$scope", o) :: us) b := by
  have hcode : ¬ "$scope" = "$code" := by decide
  rw [readMembers]
  simp only [whole_bind, if_neg hcode, if_true]
  constructor
  · intro h
    obtain ⟨scope, hscope, h⟩ := bind_eq_ok.mp h
    rcases us with _ | ⟨⟨k, p⟩, us⟩
    · cases h
    · change (if k = "$code" then _ else _) = _ at h
      split at h
      · rename_i hk
        obtain ⟨source, hsource, h⟩ := bind_eq_ok.mp h
        obtain ⟨_, hleave, hb⟩ := bind_eq_ok.mp h
        obtain rfl : us = [] := by
          simpa [label] using (leaveObject_closed hs).mp hleave
        cases hb
        exact .codeWithScope (.inr (by rw [hk])) hsource hscope rfl
      · cases h
  · rintro (⟨hus, htag, -⟩ | ⟨hus, -, -⟩ | ⟨hus | hus, h, hscope, rfl⟩)
    · obtain ⟨rfl, -⟩ := Prod.mk.inj (List.cons.inj hus).1
      cases htag
    · obtain ⟨hhead, -⟩ := List.cons.inj hus
      exact absurd (Prod.mk.inj hhead).1 hcode
    · obtain ⟨hhead, -⟩ := List.cons.inj hus
      exact absurd (Prod.mk.inj hhead).1 hcode
    · obtain ⟨hhead, rfl⟩ := List.cons.inj hus
      obtain ⟨-, rfl⟩ := Prod.mk.inj hhead
      have hleave : s.leaveObject (label []).length total .closed = .ok () :=
        (leaveObject_closed hs).mpr rfl
      refine bind_eq_ok.mpr ⟨_, hscope, bind_eq_ok.mpr ⟨"$code", rfl, ?_⟩⟩
      exact bind_eq_ok.mpr ⟨_, h, bind_eq_ok.mpr ⟨(), hleave, rfl⟩⟩

/-- From a tag on, what stands in front does not matter. -/
theorem readMembers_tagged (hs : s.source ≠ .table) {k : String} (hk : isTag k = true) :
    readMembers s total .closed doc ((.ok k, o) :: label us) = .ok b ↔
      ReadsTagged s ((k, o) :: us) b := by
  by_cases hcode : k = "$code"
  · subst hcode
    exact readMembers_code hs
  by_cases hscope : k = "$scope"
  · subst hscope
    exact readMembers_scope hs
  obtain ⟨body, hbody⟩ : ∃ body, tagged k = some body := by
    simpa [isTag, hcode, hscope, Option.isSome_iff_exists] using hk
  rw [readMembers]
  simp only [whole_bind, if_neg hcode, if_neg hscope, hbody]
  constructor
  · intro h
    obtain ⟨v, hv, h⟩ := bind_eq_ok.mp h
    obtain ⟨_, hleave, hb⟩ := bind_eq_ok.mp h
    obtain rfl : us = [] := by
      simpa [label] using (leaveObject_closed hs).mp hleave
    cases hb
    exact .body rfl hbody hv
  · rintro (⟨hus, htag, h⟩ | ⟨hus, -, -⟩ | ⟨hus | hus, -, -, -⟩)
    · obtain ⟨hhead, rfl⟩ := List.cons.inj hus
      obtain ⟨rfl, rfl⟩ := Prod.mk.inj hhead
      obtain rfl := Option.some.inj (hbody.symm.trans htag)
      have hleave : s.leaveObject (label []).length total .closed = .ok () :=
        (leaveObject_closed hs).mpr rfl
      exact bind_eq_ok.mpr ⟨_, h, bind_eq_ok.mpr ⟨(), hleave, rfl⟩⟩
    · exact absurd (Prod.mk.inj (List.cons.inj hus).1).1 hcode
    · exact absurd (Prod.mk.inj (List.cons.inj hus).1).1 hcode
    · exact absurd (Prod.mk.inj (List.cons.inj hus).1).1 hscope

end Tagged

theorem readMembers_eq_ok (hs : s.source ≠ .table) {total : Nat} {us : List (String × Outline)}
    (hkeys : (Entries.keys us).Nodup) {b : Bson} :
    readMembers s total .closed [] (label us) = .ok b ↔ Reads s us b := by
  have hsplit : label us = label (front us) ++ label (back us) := by
    rw [label, label, label, ← List.map_append, front_append_back]
  have hplain : ∀ u ∈ front us, isTag u.1 = false := by
    intro u hu
    simpa using List.mem_takeWhile_imp hu
  have hfront : (Entries.keys ([] : Document) ++ Entries.keys (front us)).Nodup :=
    hkeys.sublist ((List.takeWhile_sublist _).map _)
  rw [hsplit, readMembers_front hplain hfront, Reads]
  simp only [bind_eq_ok, List.nil_append]
  refine exists_congr fun es => and_congr_right fun _ => ?_
  rcases hback : back us with _ | ⟨⟨k, o⟩, tail⟩
  · have hnone : ¬ ReadsTagged s [] b := by
      rintro (⟨⟨⟩, -, -⟩ | ⟨⟨⟩, -, -⟩ | ⟨⟨⟨⟩⟩ | ⟨⟨⟩⟩, -, -, -⟩)
    simp [label, readMembers, Ending.ofObject, hnone, eq_comm]
  · have htag : isTag k = true := by
      have hnot := List.head?_dropWhile_not (fun u : String × Outline => !isTag u.1) us
      rw [back] at hback
      rw [hback] at hnot
      simpa using hnot
    simp only [reduceCtorEq, false_and, false_or]
    exact readMembers_tagged hs htag

theorem names_label (us : List (String × Outline)) : names (label us) = Entries.keys us := by
  induction us with
  | nil => rfl
  | cons u us ih =>
    rw [Entries.keys_cons, ← ih]
    rfl

theorem read_object_eq_ok {inner : Scope} (hinner : s.enter = .ok inner)
    (hs : inner.source ≠ .table) {us : List (String × Outline)} (hkeys : (Entries.keys us).Nodup)
    {b : Bson} : Bson.read s (.object (label us) .closed) = .ok b ↔ Reads inner us b := by
  rw [Bson.read, hinner]
  exact readMembers_eq_ok hs hkeys

theorem readItems_eq_mapM (s : Scope) (os : List Outline) :
    Bson.readItems s os = os.mapM (Bson.read s) := by
  induction os with
  | nil => rfl
  | cons o os ih =>
    rw [Bson.readItems, List.mapM_cons, ih]

/-! ## Members that change their order -/

/-- A plain key stands behind a tag. -/
def PlainBehind (ks : List String) : Prop := ∃ k ∈ ks.dropWhile fun k => !isTag k, isTag k = false

/-- A plain key stands behind a tag as the keys are exactly if one does when they are sorted. -/
def KeepsTags (ks : List String) : Prop :=
  PlainBehind ks ↔ ∃ k ∈ ks, isTag k = false ∧ ∃ t ∈ ks, isTag t = true ∧ t < k

instance : DecidablePred KeepsTags := fun ks =>
  inferInstanceAs (Decidable
    ((∃ k ∈ ks.dropWhile fun k => !isTag k, isTag k = false) ↔
      ∃ k ∈ ks, isTag k = false ∧ ∃ t ∈ ks, isTag t = true ∧ t < k))

/-- Keys that ascend are sorted as they are. -/
theorem keepsTags_of_ascending {ks : List String} (h : ks.Pairwise (· < ·)) : KeepsTags ks := by
  induction ks with
  | nil => simp [KeepsTags, PlainBehind]
  | cons k ks ih =>
    obtain ⟨hfirst, hrest⟩ := List.pairwise_cons.mp h
    rcases hk : isTag k with _ | _
    · have hbehind : PlainBehind (k :: ks) ↔ PlainBehind ks := by simp [PlainBehind, hk]
      have hsorted := ih hrest
      rw [KeepsTags] at hsorted ⊢
      rw [hbehind, hsorted]
      constructor
      · rintro ⟨x, hx, hplain, t, ht, htag, hlt⟩
        exact ⟨x, .tail _ hx, hplain, t, .tail _ ht, htag, hlt⟩
      · rintro ⟨x, hx, hplain, t, ht, htag, hlt⟩
        rcases List.mem_cons.mp ht with rfl | htail
        · rw [hk] at htag
          cases htag
        rcases List.mem_cons.mp hx with rfl | hx
        · exact absurd hlt (hfirst t htail).not_gt
        · exact ⟨x, hx, hplain, t, htail, htag, hlt⟩
    · have hbehind : PlainBehind (k :: ks) ↔ ∃ x ∈ ks, isTag x = false := by
        simp [PlainBehind, hk]
      rw [KeepsTags, hbehind]
      constructor
      · rintro ⟨x, hx, hplain⟩
        exact ⟨x, .tail _ hx, hplain, k, List.mem_cons_self, hk, hfirst x hx⟩
      · rintro ⟨x, hx, hplain, -⟩
        rcases List.mem_cons.mp hx with rfl | hx
        · rw [hk] at hplain
          cases hplain
        · exact ⟨x, hx, hplain⟩

section Order

variable {α : Type} {us es fs : List (String × α)}

theorem keys_front (us : List (String × α)) :
    Entries.keys (front us) = (Entries.keys us).takeWhile fun k => !isTag k := by
  rw [Entries.keys, Entries.keys, List.takeWhile_map]
  rfl

theorem keys_back (us : List (String × α)) :
    Entries.keys (back us) = (Entries.keys us).dropWhile fun k => !isTag k := by
  rw [Entries.keys, Entries.keys, List.dropWhile_map]
  rfl

theorem plainBehind_keys : PlainBehind (Entries.keys us) ↔ ∃ u ∈ back us, isTag u.1 = false := by
  rw [PlainBehind, ← keys_back]
  simp [Entries.keys]

theorem plainBehind_perm (hperm : fs.Perm es) (hfs : Entries.Ascending fs)
    (htags : KeepsTags (Entries.keys es)) :
    PlainBehind (Entries.keys fs) ↔ PlainBehind (Entries.keys es) := by
  have hkeys : (Entries.keys fs).Perm (Entries.keys es) := hperm.map _
  have hsorted : KeepsTags (Entries.keys fs) := keepsTags_of_ascending hfs
  rw [KeepsTags] at hsorted htags
  simp only [hsorted, htags, hkeys.mem_iff]

/-- With all tags at the end, both parts can be told by the keys. -/
theorem front_back_eq_filter (h : ¬ PlainBehind (Entries.keys us)) :
    front us = us.filter (fun u => !isTag u.1) ∧ back us = us.filter fun u => isTag u.1 := by
  have hfront : ∀ u ∈ front us, isTag u.1 = false := fun u hu => by
    simpa using List.mem_takeWhile_imp hu
  have hback : ∀ u ∈ back us, isTag u.1 = true := by simpa [plainBehind_keys] using h
  constructor
  · calc front us = (front us).filter (fun u => !isTag u.1) ++
          (back us).filter (fun u => !isTag u.1) := by
          rw [List.filter_eq_self.mpr (by simpa using hfront),
            List.filter_eq_nil_iff.mpr (by simpa using hback), List.append_nil]
      _ = us.filter (fun u => !isTag u.1) := by rw [← List.filter_append, front_append_back]
  · calc back us = (front us).filter (fun u => isTag u.1) ++
          (back us).filter (fun u => isTag u.1) := by
          rw [List.filter_eq_self.mpr hback, List.filter_eq_nil_iff.mpr (by simpa using hfront),
            List.nil_append]
      _ = us.filter fun u => isTag u.1 := by rw [← List.filter_append, front_append_back]

/-- With all tags at the end before and after, both parts only change their order. -/
theorem front_back_perm (hperm : fs.Perm es) (hfs : ¬ PlainBehind (Entries.keys fs))
    (hes : ¬ PlainBehind (Entries.keys es)) :
    (front fs).Perm (front es) ∧ (back fs).Perm (back es) := by
  obtain ⟨hfront, hback⟩ := front_back_eq_filter hfs
  obtain ⟨hfront', hback'⟩ := front_back_eq_filter hes
  rw [hfront, hback, hfront', hback']
  exact ⟨hperm.filter _, hperm.filter _⟩

end Order

theorem ReadsTagged.isTag {us : List (String × Outline)} {b : Bson} (h : ReadsTagged s us b) :
    ∀ u ∈ us, isTag u.1 = true := by
  rcases h with ⟨rfl, htag, -⟩ | ⟨rfl, -, -⟩ | ⟨rfl | rfl, -, -, -⟩
  · simp [Bson.isTag, htag]
  all_goals simp [Bson.isTag]

/-- An object with a plain key behind a tag is refused. -/
theorem Reads.not_plainBehind {us : List (String × Outline)} {b : Bson} (h : Reads s us b) :
    ¬ PlainBehind (Entries.keys us) := by
  rw [plainBehind_keys]
  rintro ⟨u, hu, hplain⟩
  obtain ⟨es, -, ⟨hnil, -⟩ | htagged⟩ := h
  · rw [hnil] at hu
    cases hu
  · rw [htagged.isTag u hu] at hplain
    cases hplain

theorem keys_of_readEntry {us : List (String × Outline)} {es : Document}
    (h : us.mapM (readEntry s) = .ok es) : Entries.keys es = Entries.keys us := by
  have hall := forall₂_of_mapM_eq_ok h
  clear h
  induction hall with
  | nil => rfl
  | @cons u e us es hu _ ih =>
    obtain ⟨b, -, rfl⟩ := map_eq_ok.mp hu
    rw [Entries.keys_cons, Entries.keys_cons, ih]

theorem mapM_perm {ε α β : Type} {f : α → Except ε β} {as as' : List α} {bs : List β}
    (hperm : as.Perm as') (h : as'.mapM f = .ok bs) :
    ∃ cs, as.mapM f = .ok cs ∧ cs.Perm bs := by
  obtain ⟨cs, hcs, hcs'⟩ := List.perm_comp_forall₂ hperm (forall₂_of_mapM_eq_ok h)
  exact ⟨cs, mapM_eq_ok_of_forall₂ hcs, hcs'⟩

theorem perm_pair {α : Type} {a b : α} {as : List α} (h : [a, b].Perm as) :
    as = [a, b] ∨ as = [b, a] := by
  obtain ⟨x, y, rfl⟩ := List.length_eq_two.mp h.length_eq.symm
  have hmem : a = x ∨ a = y := by
    simpa using h.subset List.mem_cons_self
  rcases hmem with rfl | rfl
  · have hrest := List.singleton_perm.mp ((List.perm_cons a).mp h)
    obtain rfl : b = y := by simpa using hrest
    exact .inl rfl
  · have hrest := List.singleton_perm.mp ((List.perm_cons a).mp (h.trans (.swap _ _ _)))
    obtain rfl : b = x := by simpa using hrest
    exact .inr rfl

theorem ReadsTagged.perm {us us' : List (String × Outline)} {b : Bson} (hperm : us.Perm us')
    (h : ReadsTagged s us b) : ReadsTagged s us' b := by
  cases h with
  | body hus htag h =>
    subst hus
    exact .body (List.singleton_perm.mp hperm).symm htag h
  | code hus h hb =>
    subst hus
    exact .code (List.singleton_perm.mp hperm).symm h hb
  | codeWithScope hus h hscope hb =>
    refine .codeWithScope ?_ h hscope hb
    rcases hus with rfl | rfl
    · exact perm_pair hperm
    · exact (perm_pair hperm).symm

/-- A document with its entries sorted by key. -/
def arranged : Bson → Bson
  | .document es => .document (Entries.sorted es)
  | b => b

theorem arranged_of_isFlat {b : Bson} (h : b.IsFlat) : b.arranged = b := by
  cases b with
  | document => exact h.elim
  | _ => rfl

theorem ReadsTagged.arranged {us : List (String × Outline)} {b : Bson} (h : ReadsTagged s us b) :
    b.arranged = b := by
  rcases h with ⟨-, htag, hbody⟩ | ⟨-, -, rfl⟩ | ⟨-, -, -, rfl⟩
  · exact arranged_of_isFlat (isFlat_of_tagged htag hbody)
  · rfl
  · rfl

/-- With all tags at the end before and after, an object is read as the same with its members in
the order of their keys, and a document has its entries in that order then. -/
theorem reads_sorted_iff {fs ws : List (String × Outline)} (hperm : fs.Perm ws)
    (hfs : Entries.Ascending fs) (hplain : ¬ PlainBehind (Entries.keys fs))
    (hplain' : ¬ PlainBehind (Entries.keys ws)) {c : Bson} :
    Reads s fs c ↔ ∃ b, Reads s ws b ∧ b.arranged = c := by
  obtain ⟨hfront, hback⟩ := front_back_perm hperm hplain hplain'
  have hnil : back fs = [] ↔ back ws = [] := by
    rw [← List.length_eq_zero_iff, ← List.length_eq_zero_iff, hback.length_eq]
  -- what is read in the order of the keys is sorted
  have hsorted : ∀ {cs ds : Document}, (front fs).mapM (readEntry s) = .ok cs → cs.Perm ds →
      cs = Entries.sorted ds := by
    intro cs ds hcs hperm
    refine Entries.eq_sorted hperm ?_
    rw [Entries.Ascending, keys_of_readEntry hcs, keys_front]
    exact hfs.sublist (List.takeWhile_sublist _)
  constructor
  · rintro ⟨cs, hcs, hc⟩
    obtain ⟨ds, hds, hdsperm⟩ := mapM_perm hfront.symm hcs
    rcases hc with ⟨hempty, rfl⟩ | hc
    · refine ⟨.document ds, ⟨ds, hds, .inl ⟨hnil.mp hempty, rfl⟩⟩, ?_⟩
      rw [arranged, ← hsorted hcs hdsperm.symm]
    · exact ⟨c, ⟨ds, hds, .inr (hc.perm hback)⟩, hc.arranged⟩
  · rintro ⟨b, ⟨ds, hds, hb⟩, rfl⟩
    obtain ⟨cs, hcs, hcsperm⟩ := mapM_perm hfront hds
    refine ⟨cs, hcs, ?_⟩
    rcases hb with ⟨hempty, rfl⟩ | hb
    · refine .inl ⟨hnil.mpr hempty, ?_⟩
      rw [arranged, ← hsorted hcs hcsperm]
    · rw [hb.arranged]
      exact .inr (hb.perm hback.symm)

end Gateway.Bson
