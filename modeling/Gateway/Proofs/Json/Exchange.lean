import Gateway.Proofs.Json.Parts
import Gateway.Proofs.Json.ReadBack

/-!
# Reading with one part exchanged

A reader that has read a list or a record has read each part of it in one place, and reads the
same with another part there, but for what it makes of that part. For a list this is the item in
its place (`readList_item`). For a record it is the value of a field, which may stand under its
name or in its turn: the fields that are read after it do not look at it (`Shape.Retouches`), and
so the draft in the end differs in that field alone (`Shape.Owns.read_field`).
-/

namespace Gateway.Json

variable {α σ : Type} {s : Scope}

theorem map_eq_ok {ε β γ : Type} {f : β → γ} {x : Except ε β} {c : γ} :
    x.map f = .ok c ↔ ∃ b, x = .ok b ∧ f b = c := by
  cases x <;> simp [Except.map]

theorem map_map {ε β γ δ : Type} (f : β → γ) (g : γ → δ) (x : Except ε β) :
    (x.map f).map g = x.map fun b => g (f b) := by
  cases x <;> rfl

/-! ## Lists -/

theorem mapM_eq_ok_split {ε β γ : Type} {f : β → Except ε γ} {bs : List β} {xs ys : List γ} {y : γ}
    (h : bs.mapM f = .ok (xs ++ y :: ys)) :
    ∃ as b cs, bs = as ++ b :: cs ∧ as.mapM f = .ok xs ∧ f b = .ok y ∧ cs.mapM f = .ok ys := by
  induction xs generalizing bs with
  | nil =>
    rcases bs with _ | ⟨b, bs⟩
    · cases h
    rw [List.mapM_cons, bind_eq_ok] at h
    obtain ⟨y', hy, h⟩ := h
    obtain ⟨ys', hys, h⟩ := bind_eq_ok.mp h
    cases h
    exact ⟨[], b, bs, rfl, rfl, hy, hys⟩
  | cons x xs ih =>
    rcases bs with _ | ⟨b, bs⟩
    · cases h
    rw [List.mapM_cons, bind_eq_ok] at h
    obtain ⟨x', hx, h⟩ := h
    obtain ⟨ys', hys, h⟩ := bind_eq_ok.mp h
    cases h
    obtain ⟨as, b', cs, rfl, has, hb', hcs⟩ := ih hys
    refine ⟨b :: as, b', cs, rfl, ?_, hb', hcs⟩
    rw [List.mapM_cons, hx, has]
    rfl

theorem mapM_append_eq_ok {ε β γ : Type} {f : β → Except ε γ} {as bs : List β} {xs ys : List γ}
    (has : as.mapM f = .ok xs) (hbs : bs.mapM f = .ok ys) :
    (as ++ bs).mapM f = .ok (xs ++ ys) := by
  rw [List.mapM_append, has, hbs]
  rfl

theorem mapM_cons_eq_ok {ε β γ : Type} {f : β → Except ε γ} {b : β} {bs : List β} {y : γ}
    {ys : List γ} (hb : f b = .ok y) (hbs : bs.mapM f = .ok ys) :
    (b :: bs).mapM f = .ok (y :: ys) := by
  rw [List.mapM_cons, hb, hbs]
  rfl

theorem mapM_eq_ok_of_forall₂ {ε β γ : Type} {f : β → Except ε γ} {bs : List β} {ys : List γ}
    (h : List.Forall₂ (fun b y => f b = .ok y) bs ys) : bs.mapM f = .ok ys := by
  induction h with
  | nil => rfl
  | cons hb _ ih => exact mapM_cons_eq_ok hb ih

theorem readList_of_mapM {item : Scope → Outline → Except Fault α} {inner : Scope}
    {os : List Outline} {e : Ending} {as : List α} (hinner : s.enter = .ok inner)
    (hos : os.mapM (item inner) = .ok as) (he : e.ofList = .ok ()) :
    (Outline.array os e).readList item s = .ok as := by
  simp only [Outline.readList, bind_eq_ok]
  exact ⟨inner, hinner, as, hos, (), he, rfl⟩

/-- An item of a list that was read can be left out, or another one can be read in its place. -/
theorem readList_item {item : Scope → Outline → Except Fault α} {o : Outline} {as bs : List α}
    {a : α} (h : o.readList item s = .ok (as ++ a :: bs)) :
    ∃ inner os x us e, o = .array (os ++ x :: us) e ∧ item inner x = .ok a ∧
      (Outline.array (os ++ us) e).readList item s = .ok (as ++ bs) ∧
      ∀ x' a', item inner x' = .ok a' →
        (Outline.array (os ++ x' :: us) e).readList item s = .ok (as ++ a' :: bs) := by
  cases o with
  | array items e =>
    simp only [Outline.readList, bind_eq_ok] at h
    obtain ⟨inner, hinner, values, hvalues, _, he, hok⟩ := h
    cases hok
    obtain ⟨os, x, us, rfl, hos, hx, hus⟩ := mapM_eq_ok_split hvalues
    refine ⟨inner, os, x, us, e, rfl, hx, ?_, fun x' a' hx' => ?_⟩
    · exact readList_of_mapM hinner (mapM_append_eq_ok hos hus) he
    · exact readList_of_mapM hinner (mapM_append_eq_ok hos (mapM_cons_eq_ok hx' hus)) he
  | _ => cases h

/-! ## Records -/

namespace Shape

/-- A field of a record, between those before and behind it, and what a draft has for it. No
other field has to do with that. -/
structure Owns {β : Type} (shape : Shape σ α) (fs₁ : List (Field σ)) (f : Field σ)
    (fs₂ : List (Field σ)) (value : σ → Option β) : Prop where
  fields : shape.fields = fs₁ ++ f :: fs₂
  name : ∀ g ∈ fs₁ ++ fs₂, g.name ≠ f.name
  given : ∀ d, f.given d = (value d).isSome
  start : value shape.start = none
  fills : ∀ s o d d', f.read s o d = .ok d' → (value d').isSome
  apart : ∀ g ∈ fs₁ ++ fs₂, ∀ s o d d', g.read s o d = .ok d' → value d' = value d

/-- A change of drafts that other fields do not notice. -/
structure Retouches (shape : Shape σ α) (others : List (Field σ)) (φ : σ → σ) : Prop where
  given : ∀ g ∈ shape.fields, ∀ d, g.given (φ d) = g.given d
  read : ∀ g ∈ others, ∀ s o d, g.read s o (φ d) = (g.read s o d).map φ

variable {β : Type} {shape : Shape σ α} {f : Field σ} {fs₁ fs₂ : List (Field σ)}
  {value : σ → Option β} {φ : σ → σ}

/-! ### Members -/

/-- Reads one member into a draft. -/
def takeMember (shape : Shape σ α) (s : Scope) (d : σ) (m : Key × Outline) : Except Fault σ := do
  let k ← whole m.1
  match shape.fields.find? fun f => f.name = k with
  | some f => if f.given d then .error (.duplicateField k) else f.read s m.2 d
  | none =>
    if shape.strict then .error (.unknownField k shape.names)
    else do
      m.2.skip
      pure d

theorem takeMembers_cons (shape : Shape σ α) (s : Scope) (d : σ) (m : Key × Outline)
    (ms : List (Key × Outline)) :
    shape.takeMembers s d (m :: ms) =
      shape.takeMember s d m >>= fun d => shape.takeMembers s d ms := by
  obtain ⟨key, o⟩ := m
  simp only [takeMembers, takeMember, bind_assoc]
  congr
  funext k
  generalize List.find? _ shape.fields = found
  rcases found with _ | f
  · rcases shape.strict with _ | _
    · cases o.skip <;> rfl
    · rfl
  · dsimp only
    rcases f.given d with _ | _ <;> rfl

theorem takeMembers_append (shape : Shape σ α) (s : Scope) (d : σ)
    (ms₁ ms₂ : List (Key × Outline)) :
    shape.takeMembers s d (ms₁ ++ ms₂) =
      shape.takeMembers s d ms₁ >>= fun d => shape.takeMembers s d ms₂ := by
  induction ms₁ generalizing d with
  | nil => rfl
  | cons m ms₁ ih => simp only [List.cons_append, takeMembers_cons, ih, bind_assoc]

theorem Owns.find? (h : shape.Owns fs₁ f fs₂ value) :
    shape.fields.find? (fun g => g.name = f.name) = some f := by
  have hbefore : ∀ g ∈ fs₁, ¬ decide (g.name = f.name) := by
    intro g hg
    simpa using h.name g (List.mem_append_left _ hg)
  rw [h.fields, List.find?_append, List.find?_eq_none.mpr hbefore, Option.none_or]
  exact List.find?_cons_of_pos (decide_eq_true rfl)

theorem Owns.mem_or_eq (h : shape.Owns fs₁ f fs₂ value) {g : Field σ} (hg : g ∈ shape.fields) :
    g = f ∨ g ∈ fs₁ ++ fs₂ := by
  rw [h.fields] at hg
  simp only [List.mem_append, List.mem_cons] at hg ⊢
  tauto

theorem Owns.takeMember_self (h : shape.Owns fs₁ f fs₂ value) (s : Scope) (d : σ) (o : Outline) :
    shape.takeMember s d (.ok f.name, o) =
      if f.given d then .error (.duplicateField f.name) else f.read s o d := by
  simp only [takeMember, whole_bind, h.find?]

/-- A member is the first one for the field, or leaves it as it is. -/
theorem Owns.takeMember_cases (h : shape.Owns fs₁ f fs₂ value) {d d' : σ} {m : Key × Outline}
    (hm : shape.takeMember s d m = .ok d') :
    (∃ o, m = (.ok f.name, o) ∧ value d = none ∧ f.read s o d = .ok d') ∨
      value d' = value d := by
  obtain ⟨key, o⟩ := m
  rw [takeMember, bind_eq_ok] at hm
  obtain ⟨k, hk, hm⟩ := hm
  obtain rfl : key = .ok k := by
    rcases key with m | k'
    · cases hk
    · cases hk
      rfl
  split at hm
  · rename_i g hg
    split at hm
    · cases hm
    · rename_i hgiven
      obtain ⟨hname, hmem⟩ : g.name = k ∧ g ∈ shape.fields :=
        ⟨by simpa using List.find?_some hg, List.mem_of_find?_eq_some hg⟩
      rcases h.mem_or_eq hmem with rfl | hother
      · subst hname
        exact .inl ⟨o, rfl, by simpa [h.given] using hgiven, hm⟩
      · exact .inr (h.apart g hother s o d d' hm)
  · split at hm
    · cases hm
    · obtain ⟨_, _, hm⟩ := bind_eq_ok.mp hm
      cases hm
      exact .inr rfl

theorem Owns.takeMembers_keep (h : shape.Owns fs₁ f fs₂ value) {ms : List (Key × Outline)}
    {d d' : σ} (hms : shape.takeMembers s d ms = .ok d') (hd : (value d).isSome) :
    value d' = value d := by
  induction ms generalizing d with
  | nil =>
    cases hms
    rfl
  | cons m ms ih =>
    rw [takeMembers_cons, bind_eq_ok] at hms
    obtain ⟨d₁, hm, hrest⟩ := hms
    rcases h.takeMember_cases hm with ⟨o, -, hnone, -⟩ | hsame
    · simp [hnone] at hd
    · exact (ih hrest (hsame ▸ hd)).trans hsame

/-- Members that fill the field have one that does. -/
theorem Owns.takeMembers_split (h : shape.Owns fs₁ f fs₂ value) {ms : List (Key × Outline)}
    {d d' : σ} (hms : shape.takeMembers s d ms = .ok d') (hd : value d = none)
    (hd' : (value d').isSome) :
    ∃ ms₁ o ms₂ d₁ d₂, ms = ms₁ ++ (.ok f.name, o) :: ms₂ ∧ shape.takeMembers s d ms₁ = .ok d₁ ∧
      value d₁ = none ∧ f.read s o d₁ = .ok d₂ ∧ shape.takeMembers s d₂ ms₂ = .ok d' := by
  induction ms generalizing d with
  | nil =>
    cases hms
    simp [hd] at hd'
  | cons m ms ih =>
    rw [takeMembers_cons, bind_eq_ok] at hms
    obtain ⟨d₁, hm, hrest⟩ := hms
    rcases h.takeMember_cases hm with ⟨o, rfl, hnone, hread⟩ | hsame
    · exact ⟨[], o, ms, d, d₁, rfl, rfl, hnone, hread, hrest⟩
    · obtain ⟨ms₁, o, ms₂, e₁, e₂, rfl, hfirst, hnone, hread, hlast⟩ := ih hrest (hsame.trans hd)
      refine ⟨m :: ms₁, o, ms₂, e₁, e₂, rfl, ?_, hnone, hread, hlast⟩
      rw [takeMembers_cons, hm]
      exact hfirst

theorem Owns.takeMember_map (h : shape.Owns fs₁ f fs₂ value) (hφ : shape.Retouches (fs₁ ++ fs₂) φ)
    {d : σ} (hd : (value d).isSome) (m : Key × Outline) :
    shape.takeMember s (φ d) m = (shape.takeMember s d m).map φ := by
  obtain ⟨key, o⟩ := m
  rcases key with fault | k
  · rfl
  simp only [takeMember, whole_bind]
  generalize hfind : List.find? _ shape.fields = found
  rcases found with _ | g
  · dsimp only
    split
    · rfl
    · cases o.skip <;> rfl
  · have hmem := List.mem_of_find?_eq_some hfind
    simp only [hφ.given g hmem d]
    rcases hgiven : g.given d with _ | _
    · rcases h.mem_or_eq hmem with rfl | hother
      · simp [h.given, hd] at hgiven
      · simpa using hφ.read g hother s o d
    · rfl

theorem Owns.takeMembers_map (h : shape.Owns fs₁ f fs₂ value) (hφ : shape.Retouches (fs₁ ++ fs₂) φ)
    {d : σ} (hd : (value d).isSome) (ms : List (Key × Outline)) :
    shape.takeMembers s (φ d) ms = (shape.takeMembers s d ms).map φ := by
  induction ms generalizing d with
  | nil => rfl
  | cons m ms ih =>
    rw [takeMembers_cons, takeMembers_cons, h.takeMember_map hφ hd]
    rcases hm : shape.takeMember s d m with fault | d'
    · rfl
    · rcases h.takeMember_cases hm with ⟨o, -, hnone, -⟩ | hsame
      · simp [hnone] at hd
      · exact ih (hsame ▸ hd)

/-! ### Items -/

theorem Owns.takeItems_keep (h : shape.Owns fs₁ f fs₂ value) {gs : List (Field σ)}
    (hgs : ∀ g ∈ gs, g ∈ fs₁ ++ fs₂) {os : List Outline} {d d' : σ} {left : Nat} {short : Bool}
    (hos : takeItems s gs os d = .ok (d', left, short)) : value d' = value d := by
  induction gs generalizing os d with
  | nil =>
    cases hos
    rfl
  | cons g gs ih =>
    rcases os with _ | ⟨o, os⟩
    · cases hos
      rfl
    · rw [takeItems, bind_eq_ok] at hos
      obtain ⟨e, hread, hrest⟩ := hos
      have he := h.apart g (hgs g List.mem_cons_self) s o d e hread
      exact (ih (fun g hg => hgs g (List.mem_cons_of_mem _ hg)) hrest).trans he

/-- Items that fill the field have one in its turn. -/
theorem Owns.takeItems_split (h : shape.Owns fs₁ f fs₂ value) {gs : List (Field σ)}
    (hgs : ∀ g ∈ gs, g ∈ fs₁ ++ fs₂) {os : List Outline} {d d' : σ} {left : Nat} {short : Bool}
    (hos : takeItems s (gs ++ f :: fs₂) os d = .ok (d', left, short)) (hd : value d = none)
    (hd' : (value d').isSome) :
    ∃ os₁ o os₂ d₁ d₂, os = os₁ ++ o :: os₂ ∧ f.read s o d₁ = .ok d₂ ∧
      takeItems s fs₂ os₂ d₂ = .ok (d', left, short) ∧
      ∀ us, takeItems s (gs ++ f :: fs₂) (os₁ ++ us) d = takeItems s (f :: fs₂) us d₁ := by
  induction gs generalizing os d with
  | nil =>
    rcases os with _ | ⟨o, os⟩
    · cases hos
      simp [hd] at hd'
    · rw [List.nil_append, takeItems, bind_eq_ok] at hos
      obtain ⟨d₂, hread, hrest⟩ := hos
      exact ⟨[], o, os, d, d₂, rfl, hread, hrest, fun _ => rfl⟩
  | cons g gs ih =>
    rcases os with _ | ⟨o, os⟩
    · cases hos
      simp [hd] at hd'
    · rw [List.cons_append, takeItems, bind_eq_ok] at hos
      obtain ⟨e, hread, hrest⟩ := hos
      have he := h.apart g (hgs g List.mem_cons_self) s o d e hread
      obtain ⟨os₁, u, os₂, d₁, d₂, rfl, hu, hlast, hsame⟩ :=
        ih (fun g hg => hgs g (List.mem_cons_of_mem _ hg)) hrest (he.trans hd)
      refine ⟨o :: os₁, u, os₂, d₁, d₂, rfl, hu, hlast, fun us => ?_⟩
      rw [List.cons_append, List.cons_append, takeItems, hread]
      exact hsame us

theorem takeItems_map {others : List (Field σ)} (hφ : shape.Retouches others φ)
    {gs : List (Field σ)} (hgs : ∀ g ∈ gs, g ∈ others) (os : List Outline) (d : σ) :
    takeItems s gs os (φ d) = (takeItems s gs os d).map fun p => (φ p.1, p.2) := by
  induction gs generalizing os d with
  | nil => rfl
  | cons g gs ih =>
    rcases os with _ | ⟨o, os⟩
    · rfl
    · rw [takeItems, takeItems, hφ.read g (hgs g List.mem_cons_self)]
      rcases g.read s o d with fault | d'
      · rfl
      · exact ih (fun g hg => hgs g (List.mem_cons_of_mem _ hg)) os d'

/-! ### Whole records -/

theorem read_object_eq_ok {ms : List (Key × Outline)} {e : Ending} {a : α} :
    shape.read s (.object ms e) = .ok a ↔
      ∃ inner d, s.enter = .ok inner ∧ shape.takeMembers inner shape.start ms = .ok d ∧
        e.ofObject = .ok () ∧ shape.finish d = .ok a := by
  simp only [read, bind_eq_ok]
  constructor
  · rintro ⟨inner, hinner, d, hd, _, he, hfinish⟩
    refine ⟨inner, d, hinner, hd, he, ?_⟩
    split at hfinish
    · cases hfinish
      assumption
    · cases hfinish
  · rintro ⟨inner, d, hinner, hd, he, hfinish⟩
    exact ⟨inner, hinner, d, hd, (), he, by rw [hfinish]⟩

theorem finish_array_eq_ok {d : σ} {left total : Nat} {e : Ending} {a : α} :
    (match shape.finish d with
      | .ok a => do
        s.leaveList left total e
        pure a
      | .error v => .error (.invalidLength v.place shape.lengthText)) = Except.ok a ↔
      shape.finish d = .ok a ∧ s.leaveList left total e = .ok () := by
  rcases shape.finish d with v | b
  · simp
  · constructor
    · intro h
      obtain ⟨_, hleave, hb⟩ := bind_eq_ok.mp h
      cases hb
      exact ⟨rfl, hleave⟩
    · rintro ⟨hb, hleave⟩
      cases hb
      exact bind_eq_ok.mpr ⟨(), hleave, rfl⟩

theorem read_array_eq_ok {os : List Outline} {e : Ending} {a : α} :
    shape.read s (.array os e) = .ok a ↔
      ∃ inner d left short, s.enter = .ok inner ∧
        takeItems inner shape.fields os shape.start = .ok (d, left, short) ∧
        (short = true → e.ofList = .ok ()) ∧ shape.finish d = .ok a ∧
        s.leaveList left os.length e = .ok () := by
  simp only [read, bind_eq_ok]
  constructor
  · rintro ⟨inner, hinner, ⟨d, left, short⟩, hd, hrest⟩
    refine ⟨inner, d, left, short, hinner, hd, ?_⟩
    cases short with
    | false => exact ⟨by simp, finish_array_eq_ok.mp hrest⟩
    | true =>
      obtain ⟨_, he, hrest⟩ := bind_eq_ok.mp hrest
      exact ⟨fun _ => he, finish_array_eq_ok.mp hrest⟩
  · rintro ⟨inner, d, left, short, hinner, hd, hshort, hfinish⟩
    refine ⟨inner, hinner, (d, left, short), hd, ?_⟩
    cases short with
    | false => exact finish_array_eq_ok.mpr hfinish
    | true => exact bind_eq_ok.mpr ⟨(), hshort rfl, finish_array_eq_ok.mpr hfinish⟩

/-- **A field of a record can be exchanged.** The record was read with a value for the field, in
one place. With another value there, from which the field gets what a change of the draft gives
it, it is read as the record of the changed draft. -/
theorem Owns.read_field (h : shape.Owns fs₁ f fs₂ value) {o : Outline} {a : α}
    (hread : shape.read s o = .ok a) (hgiven : ∀ d, shape.finish d = .ok a → (value d).isSome) :
    ∃ C x inner d₁ d₂ d, o = C x ∧ IsFrame C ∧ f.read inner x d₁ = .ok d₂ ∧
      shape.finish d = .ok a ∧ value d = value d₂ ∧
      ∀ φ x' a', shape.Retouches (fs₁ ++ fs₂) φ → f.read inner x' d₁ = .ok (φ d₂) →
        shape.finish (φ d) = .ok a' → shape.read s (C x') = .ok a' := by
  cases o with
  | object ms e =>
    obtain ⟨inner, d, hinner, hms, he, hfinish⟩ := read_object_eq_ok.mp hread
    obtain ⟨ms₁, x, ms₂, d₁, d₂, rfl, hfirst, hnone, hx, hlast⟩ :=
      h.takeMembers_split hms h.start (hgiven d hfinish)
    have hfilled := h.fills _ _ _ _ hx
    refine ⟨_, x, inner, d₁, d₂, d, rfl, isFrame_member (.ok f.name) ms₁ ms₂ e, hx, hfinish,
      h.takeMembers_keep hlast hfilled, fun φ x' a' hφ hx' hfinish' => ?_⟩
    refine read_object_eq_ok.mpr ⟨inner, φ d, hinner, ?_, he, hfinish'⟩
    rw [takeMembers_append, hfirst, ok_bind, takeMembers_cons, h.takeMember_self]
    rw [if_neg (by simp [h.given, hnone]), hx', ok_bind, h.takeMembers_map hφ hfilled, hlast]
    rfl
  | array os e =>
    obtain ⟨inner, d, left, short, hinner, hos, hshort, hfinish, hleave⟩ :=
      read_array_eq_ok.mp hread
    have hbefore : ∀ g ∈ fs₁, g ∈ fs₁ ++ fs₂ := fun g hg => List.mem_append_left _ hg
    have hbehind : ∀ g ∈ fs₂, g ∈ fs₁ ++ fs₂ := fun g hg => List.mem_append_right _ hg
    rw [h.fields] at hos
    obtain ⟨os₁, x, os₂, d₁, d₂, rfl, hx, hlast, hsame⟩ :=
      h.takeItems_split hbefore hos h.start (hgiven d hfinish)
    refine ⟨_, x, inner, d₁, d₂, d, rfl, isFrame_item os₁ os₂ e, hx, hfinish,
      h.takeItems_keep hbehind hlast, fun φ x' a' hφ hx' hfinish' => ?_⟩
    refine read_array_eq_ok.mpr ⟨inner, φ d, left, short, hinner, ?_, hshort, hfinish', ?_⟩
    · rw [h.fields, hsame, takeItems, hx', ok_bind, takeItems_map hφ hbehind, hlast]
      rfl
    · simpa using hleave
  | _ => cases hread

/-- A text that is read as a record is closed. -/
theorem isClosed_of_read (hs : s.source = .text) {o : Outline} {a : α}
    (h : shape.read s o = .ok a) : o.IsClosed := by
  cases o with
  | object ms e =>
    obtain ⟨-, -, -, -, he, -⟩ := read_object_eq_ok.mp h
    cases e <;> first | rfl | cases he
  | array os e =>
    obtain ⟨-, -, left, -, -, -, -, -, hleave⟩ := read_array_eq_ok.mp h
    simp only [Scope.leaveList, hs] at hleave
    split at hleave
    · cases e <;> first | rfl | cases hleave
    · cases hleave
  | _ => cases h

end Shape

end Gateway.Json
