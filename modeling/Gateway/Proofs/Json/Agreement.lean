import Gateway.Proofs.Json.Whole
import Mathlib.Data.List.Pairwise

/-!
# Reading at once and by way of a value

A text can be read as it comes, or a value can be read whole from it first and then be read in
its place. The second way meets the members of every object in the order of their keys. A reader
agrees about an outline (`Agrees`) if the second way gives what the first gives under some change,
which is none for most readers. Under a condition both give something or none does, and most
readers need none.

Options, lists and choices by name agree when what is inside does. A record agrees when its
fields do and no two of them have to do with each other (`Field.Apart`): then it does not matter
in which order its members come (`Shape.takeMembers_perm`).
-/

namespace Gateway.Json

variable {α β γ σ ε : Type}

/-! ## Results -/

/-- Two results of which the second is the first under `g`, if there are both. If `P`, there are
both or none. -/
inductive Mirrors (P : Prop) (g : α → β) : Except ε α → Except ε β → Prop
  | ok (a : α) : Mirrors P g (.ok a) (.ok (g a))
  | error (e e' : ε) : Mirrors P g (.error e) (.error e')
  | left (h : ¬P) (a : α) (e' : ε) : Mirrors P g (.ok a) (.error e')
  | right (h : ¬P) (e : ε) (b : β) : Mirrors P g (.error e) (.ok b)

namespace Mirrors

variable {P Q : Prop} {g : α → β} {x : Except ε α} {y : Except ε β}

theorem intro (hsame : ∀ a b, x = .ok a → y = .ok b → b = g a)
    (hboth : P → ((∃ a, x = .ok a) ↔ ∃ b, y = .ok b)) : Mirrors P g x y := by
  rcases x with e | a <;> rcases y with e' | b
  · exact .error e e'
  · refine .right (fun hP => ?_) e b
    obtain ⟨a, ha⟩ := (hboth hP).mpr ⟨b, rfl⟩
    cases ha
  · refine .left (fun hP => ?_) a e'
    obtain ⟨b, hb⟩ := (hboth hP).mp ⟨a, rfl⟩
    cases hb
  · obtain rfl := hsame a b rfl rfl
    exact .ok a

theorem same {a : α} {b : β} (h : Mirrors P g x y) (hx : x = .ok a) (hy : y = .ok b) :
    b = g a := by
  cases h with
  | ok a =>
    cases hx
    cases hy
    rfl
  | error => cases hx
  | left => cases hy
  | right => cases hx

theorem eq_ok_iff (h : Mirrors P g x y) (hP : P) (b : β) :
    y = .ok b ↔ ∃ a, x = .ok a ∧ g a = b := by
  cases h with
  | ok a => simp
  | error => simp
  | left hnot => exact absurd hP hnot
  | right hnot => exact absurd hP hnot

theorem both (h : Mirrors P g x y) (hP : P) : (∃ a, x = .ok a) ↔ ∃ b, y = .ok b := by
  simp only [h.eq_ok_iff hP]
  constructor
  · rintro ⟨a, ha⟩
    exact ⟨g a, a, ha, rfl⟩
  · rintro ⟨_, a, ha, -⟩
    exact ⟨a, ha⟩

/-- With the same successes, results mirror each other whatever `P` is. -/
theorem of_eq_ok_iff (h : ∀ b, y = .ok b ↔ ∃ a, x = .ok a ∧ g a = b) : Mirrors P g x y := by
  refine intro (fun a b hx hy => ?_) fun _ => ?_
  · obtain ⟨a', hx', rfl⟩ := (h b).mp hy
    rw [Except.ok.inj (hx.symm.trans hx')]
  · constructor
    · rintro ⟨a, ha⟩
      exact ⟨g a, (h _).mpr ⟨a, ha, rfl⟩⟩
    · rintro ⟨b, hb⟩
      obtain ⟨a, ha, -⟩ := (h b).mp hb
      exact ⟨a, ha⟩

theorem imp (h : Mirrors P g x y) (hPQ : Q → P) : Mirrors Q g x y :=
  intro (fun _ _ => h.same) fun hQ => h.both (hPQ hQ)

theorem refl (x : Except ε α) : Mirrors P id x x := of_eq_ok_iff fun b => by simp

theorem symm {x y : Except ε α} (h : Mirrors True id x y) : Mirrors P id y x :=
  of_eq_ok_iff fun a => by simp [h.eq_ok_iff trivial]

/-- Results that mirror each other can be followed by the same successes. -/
theorem trans {z : Except ε γ} {g' : β → γ} (h : Mirrors P g x y) (h' : Mirrors True g' y z) :
    Mirrors P (fun a => g' (g a)) x z := by
  refine intro (fun a c hx hz => ?_) fun hP => ?_
  · obtain ⟨b, hy, rfl⟩ := (h'.eq_ok_iff trivial c).mp hz
    rw [h.same hx hy]
  · rw [h.both hP, h'.both trivial]

theorem bind {α' β' : Type} {g' : α' → β'} {f : α → Except ε α'} {f' : β → Except ε β'}
    (h : Mirrors P g x y) (hf : ∀ a, x = .ok a → Mirrors P g' (f a) (f' (g a))) :
    Mirrors P g' (x >>= f) (y >>= f') := by
  cases h with
  | ok a => exact hf a rfl
  | error e e' => exact .error e e'
  | left hP a e' =>
    show Mirrors P g' (f a) (.error e')
    rcases f a with e | b
    · exact .error e e'
    · exact .left hP b e'
  | right hP e b =>
    show Mirrors P g' (.error e) (f' b)
    rcases f' b with e' | c
    · exact .error e e'
    · exact .right hP e c

theorem map {α' β' : Type} {g' : α' → β'} {f : α → α'} {f' : β → β'} (h : Mirrors P g x y)
    (hf : ∀ a, f' (g a) = g' (f a)) : Mirrors P g' (x.map f) (y.map f') := by
  cases h with
  | ok a =>
    show Mirrors P g' (.ok (f a)) (.ok (f' (g a)))
    rw [hf]
    exact .ok (f a)
  | error e e' => exact .error e e'
  | left hP a e' => exact .left hP (f a) e'
  | right hP e b => exact .right hP e (f' b)

/-- The faults do not matter. -/
theorem mapError {ε' : Type} (h : Mirrors True g x y) (f : ε → ε') (f' : ε → ε') :
    Mirrors P g (x.mapError f) (y.mapError f') := by
  refine of_eq_ok_iff fun b => ?_
  simp only [mapError_eq_ok, h.eq_ok_iff trivial]

/-- Readers of parts that mirror each other make lists that do. -/
theorem mapM {α' β' : Type} {R : α → β → Prop} {f : α → Except ε α'} {f' : β → Except ε β'}
    {g' : α' → β'} {as : List α} {bs : List β} (h : List.Forall₂ R as bs)
    (hf : ∀ a b, a ∈ as → R a b → Mirrors P g' (f a) (f' b)) :
    Mirrors P (List.map g') (as.mapM f) (bs.mapM f') := by
  induction h with
  | nil => exact .ok []
  | @cons a b as bs hab _ ih =>
    rw [List.mapM_cons, List.mapM_cons]
    refine (hf a b List.mem_cons_self hab).bind fun c _ => ?_
    refine (ih fun a b ha => hf a b (List.mem_cons_of_mem _ ha)).bind fun cs _ => ?_
    exact .ok (g := List.map g') (c :: cs)

end Mirrors

variable {P Q : Prop} {s : Scope} {o : Outline} {v : Json} {os : List Outline}
  {ms : List (Key × Outline)}

/-! ## Agreeing readers -/

/-- Read by way of a value, `o` gives what it gives at once, changed by `g`, if it gives anything
in both ways. If `P`, it does in both or in none. -/
def Agrees (P : Prop) (read : Scope → Outline → Except Fault α) (g : α → α) (o : Outline) : Prop :=
  ∀ s v, s.source ≠ .table → o.readJson s = .ok v →
    Mirrors P g (read s o) (read .value (.ofJson v))

theorem Agrees.imp {read : Scope → Outline → Except Fault α} {g : α → α} (h : Agrees P read g o)
    (hPQ : Q → P) : Agrees Q read g o :=
  fun s v hs hv => (h s v hs hv).imp hPQ

theorem Agrees.map {read : Scope → Outline → Except Fault α} {g : α → α} (h : Agrees P read g o)
    {f : α → β} {g' : β → β} (hf : ∀ a, f (g a) = g' (f a)) :
    Agrees P (fun s o => (read s o).map f) g' o :=
  fun s v hs hv => (h s v hs hv).map hf

theorem Agrees.bind {read : Scope → Outline → Except Fault α} (h : Agrees P read id o)
    (next : α → Except Fault β) : Agrees P (fun s o => read s o >>= next) id o :=
  fun s v hs hv => (h s v hs hv).bind fun a _ => .refl (next a)

/-- A reader that finds nothing in lists and objects agrees. -/
theorem agrees_leaf {read : Scope → Outline → Except Fault α}
    (hleaf : ∀ s, o.IsLeaf → read s o = read .value o)
    (harray : ∀ s os e, ∃ fault, read s (.array os e) = .error fault)
    (hobject : ∀ s ms e, ∃ fault, read s (.object ms e) = .error fault) : Agrees P read id o := by
  intro s v hs hv
  cases o with
  | array os e =>
    obtain ⟨inner, vs, -, -, -, hvs⟩ := ofJson_array hv
    obtain ⟨fault, hfault⟩ := harray s os e
    obtain ⟨fault', hfault'⟩ := harray .value (vs.map .ofJson) .closed
    rw [hvs, hfault, hfault']
    exact .error _ _
  | object ms e =>
    obtain ⟨inner, es, -, -, -, rfl⟩ := readJson_object_eq_ok.mp hv
    obtain ⟨fault, hfault⟩ := hobject s ms e
    obtain ⟨fault', hfault'⟩ := hobject .value (Outline.ofMembers (Entries.sorted es)) .closed
    rw [Outline.ofJson, hfault, hfault']
    exact .error _ _
  | _ =>
    rw [ofJson_leaf hv trivial, hleaf s trivial]
    exact .refl _

theorem agrees_readString (o : Outline) : Agrees P (fun _ => Outline.readString) id o :=
  agrees_leaf (fun _ _ => rfl) (fun _ _ _ => ⟨_, rfl⟩) fun _ _ _ => ⟨_, rfl⟩

theorem agrees_readBool (o : Outline) : Agrees P (fun _ => Outline.readBool) id o :=
  agrees_leaf (fun _ _ => rfl) (fun _ _ _ => ⟨_, rfl⟩) fun _ _ _ => ⟨_, rfl⟩

theorem agrees_readNatural (bound : Nat) (expected : String) (o : Outline) :
    Agrees P (fun _ => Outline.readNatural bound expected) id o :=
  agrees_leaf (fun _ _ => rfl) (fun _ _ _ => ⟨_, rfl⟩) fun _ _ _ => ⟨_, rfl⟩

theorem agrees_readWord (o : Outline) : Agrees P (fun _ => Outline.readWord) id o :=
  (agrees_readNatural wordBound "u64" o).map fun _ => rfl

theorem agrees_readOption {read : Scope → Outline → Except Fault α} {g : α → α}
    (h : o ≠ .null → Agrees P read g o) :
    Agrees P (fun s o => o.readOption (read s)) (Option.map g) o := by
  intro s v hs hv
  by_cases ho : o = .null
  · subst ho
    cases hv
    exact .ok (g := Option.map g) none
  · have hv' : Outline.ofJson v ≠ .null := fun hnull =>
      ho ((ofJson_eq_iff_of_leaf (y := .null) hv trivial).mp hnull)
    dsimp only
    rw [readOption_of_ne_null ho, readOption_of_ne_null hv']
    exact (h ho s v hs hv).map fun _ => rfl

/-- The items of a list. -/
def Outline.items : Outline → List Outline
  | .array os _ => os
  | _ => []

theorem Outline.EveryObject.items {P : List String → Prop} {x : Outline} (h : o.EveryObject P)
    (hx : x ∈ o.items) : x.EveryObject P := by
  cases o with
  | array os e => exact h.array x hx
  | _ => cases hx

theorem agrees_readList {item : Scope → Outline → Except Fault α} {g : α → α}
    (h : ∀ x ∈ o.items, Agrees P item g x) :
    Agrees P (fun s o => o.readList item s) (List.map g) o := by
  intro s v hs hv
  cases o with
  | array os e =>
    obtain ⟨inner, vs, hinner, hvs, rfl, hlist⟩ := ofJson_array hv
    have hsource : inner.source ≠ .table := by rwa [Scope.enter_source hinner]
    rw [hlist]
    simp only [Outline.readList, hinner]
    have hitems : Mirrors P (List.map g) (os.mapM (item inner))
        ((vs.map Outline.ofJson).mapM (item .value)) := by
      rw [List.mapM_map]
      exact .mapM hvs fun x w hx hw => h x hx inner w hsource hw
    exact hitems.bind fun as _ => .ok (g := List.map g) as
  | object ms e =>
    obtain ⟨inner, es, -, -, -, rfl⟩ := readJson_object_eq_ok.mp hv
    exact .error _ _
  | _ =>
    rw [ofJson_leaf hv trivial]
    exact .error _ _

/-! ## Choices -/

theorem readChoice_object_eq_ok {name : String} :
    Outline.readChoice s (.object ms .closed) = .ok name ↔
      (∃ inner, s.enter = .ok inner) ∧ ms = [(.ok name, .null)] := by
  constructor
  · intro h
    unfold Outline.readChoice at h
    dsimp only at h
    split at h
    · obtain ⟨inner, hinner, h⟩ := bind_eq_ok.mp h
      rcases ms with _ | ⟨⟨key, o⟩, rest⟩
      · cases h
      · obtain ⟨k, hk, h⟩ := bind_eq_ok.mp h
        obtain rfl := whole_eq_ok.mp hk
        cases o with
        | null =>
          rcases rest with _ | ⟨m, rest⟩
          · cases h
            exact ⟨⟨inner, hinner⟩, rfl⟩
          · cases h
        | _ => cases h
    · rename_i hsource
      refine ⟨⟨s, ?_⟩, ?_⟩
      · rcases s with ⟨_ | _ | _, _⟩
        · exact absurd rfl hsource
        · rfl
        · rfl
      · split at h
        · obtain ⟨k, hk, h⟩ := bind_eq_ok.mp h
          obtain rfl := whole_eq_ok.mp hk
          split at h
          · cases h
            rfl
          · cases h
        · cases h
  · rintro ⟨⟨inner, hinner⟩, rfl⟩
    unfold Outline.readChoice
    dsimp only
    split
    · rw [hinner]
      rfl
    · rfl

theorem agrees_readChoice (hkeys : o.KeysDistinct) : Agrees P Outline.readChoice id o := by
  intro s v hs hv
  cases o with
  | array os e =>
    obtain ⟨inner, vs, -, -, -, hlist⟩ := ofJson_array hv
    rw [hlist]
    rcases s with ⟨_ | _ | _, _⟩ <;> exact .error _ _
  | object ms e =>
    obtain ⟨inner, es, fs, hinner, hes, rfl, hperm, -, hobject⟩ := ofJson_object hv hkeys
    refine Mirrors.of_eq_ok_iff fun name => ?_
    rw [hobject, readChoice_object_eq_ok]
    constructor
    · rintro ⟨-, hsingle⟩
      obtain ⟨f, rfl, hf⟩ := List.map_eq_singleton_iff.mp hsingle
      obtain rfl := List.singleton_perm.mp hperm
      rcases hes with _ | ⟨⟨hkey, hread⟩, _ | _⟩
      rename_i m
      obtain ⟨key, x⟩ := m
      obtain ⟨hname, hnull⟩ := Prod.mk.inj hf
      obtain rfl := (ofJson_eq_iff_of_leaf (y := .null) hread trivial).mp hnull
      obtain rfl : key = .ok f.1 := hkey
      exact ⟨name, readChoice_object_eq_ok.mpr ⟨⟨inner, hinner⟩, by rw [hname]⟩, rfl⟩
    · rintro ⟨name, hname, rfl⟩
      obtain ⟨-, rfl⟩ := readChoice_object_eq_ok.mp hname
      rcases hes with _ | ⟨⟨hkey, hread⟩, _ | _⟩
      obtain rfl := List.perm_singleton.mp hperm
      rename_i f
      obtain ⟨k, w⟩ := f
      obtain rfl : name = k := Except.ok.inj hkey
      obtain rfl : Json.null = w := Except.ok.inj hread
      exact ⟨⟨.value, rfl⟩, rfl⟩
  | string t =>
    rw [ofJson_leaf hv trivial]
    exact .refl _
  | raw | broken => cases hv
  | _ =>
    rw [ofJson_leaf hv trivial]
    rcases s with ⟨_ | _ | _, _⟩ <;> exact .error _ _

/-! ## Records -/

/-- Read by way of a value, a field makes of the changed draft what it makes of the draft at
once, changed. -/
def Field.Agrees (P : Prop) (f : Field σ) (δ : σ → σ) (o : Outline) : Prop :=
  ∀ d, ∀ s v, s.source ≠ .table → o.readJson s = .ok v →
    Mirrors P δ (f.read s o d) (f.read .value (.ofJson v) (δ d))

/-- A field agrees that puts into the draft what an agreeing reader gives. -/
theorem Field.agrees_of_map {f : Field σ} {read : Scope → Outline → Except Fault β} {g : β → β}
    {put : β → σ → σ} {δ : σ → σ}
    (hf : ∀ s o d, f.read s o d = (read s o).map fun b => put b d) (h : Json.Agrees P read g o)
    (hput : ∀ b d, put (g b) (δ d) = δ (put b d)) : f.Agrees P δ o := by
  intro d s v hs hv
  rw [hf, hf]
  exact (h s v hs hv).map fun b => hput b d

/-- Two fields that have nothing to do with each other. -/
structure Field.Apart (f g : Field σ) : Prop where
  given : ∀ s o d d', g.read s o d = .ok d' → f.given d' = f.given d
  comm : ∀ s o p d d₁ d₂, f.read s o d = .ok d₁ → g.read s p d₁ = .ok d₂ →
    ∃ d₁', g.read s p d = .ok d₁' ∧ f.read s o d₁' = .ok d₂

/-- Neither of two fields has to do with the other. -/
def Field.Separate (f g : Field σ) : Prop := f.Apart g ∧ g.Apart f

instance : Std.Symm (@Field.Separate σ) := ⟨fun _ _ h => h.symm⟩

section Put

variable {name name' : String} {given given' : σ → Bool} {read : Scope → Outline → Except Fault β}
  {read' : Scope → Outline → Except Fault γ} {put : β → σ → σ} {put' : γ → σ → σ}

theorem Field.apart_of_put (hgiven : ∀ c d, given (put' c d) = given d)
    (hput : ∀ b c d, put' c (put b d) = put b (put' c d)) :
    Field.Apart ⟨name, given, fun s o d => (read s o).map fun b => put b d⟩
      ⟨name', given', fun s o d => (read' s o).map fun c => put' c d⟩ where
  given := by
    intro s o d d' h
    obtain ⟨c, -, rfl⟩ := map_eq_ok.mp h
    exact hgiven c d
  comm := by
    intro s o p d d₁ d₂ h h'
    obtain ⟨b, hb, rfl⟩ := map_eq_ok.mp h
    obtain ⟨c, hc, rfl⟩ := map_eq_ok.mp h'
    exact ⟨put' c d, map_eq_ok.mpr ⟨c, hc, rfl⟩, map_eq_ok.mpr ⟨b, hb, (hput b c d).symm⟩⟩

/-- Fields are separate that put what they read into places of their own. -/
theorem Field.separate_of_put (hgiven : ∀ c d, given (put' c d) = given d)
    (hgiven' : ∀ b d, given' (put b d) = given' d)
    (hput : ∀ b c d, put' c (put b d) = put b (put' c d)) :
    Field.Separate ⟨name, given, fun s o d => (read s o).map fun b => put b d⟩
      ⟨name', given', fun s o d => (read' s o).map fun c => put' c d⟩ :=
  ⟨Field.apart_of_put hgiven hput, Field.apart_of_put hgiven' fun c b d => (hput b c d).symm⟩

end Put

namespace Shape

/-- Fields of different names are apart. -/
def IsApart (shape : Shape σ α) : Prop :=
  ∀ f ∈ shape.fields, ∀ g ∈ shape.fields, f.name ≠ g.name → f.Apart g

theorem isApart_of_pairwise {shape : Shape σ α} (h : shape.fields.Pairwise Field.Separate) :
    shape.IsApart := by
  intro f hf g hg hne
  have hfg : f ≠ g := fun heq => hne (heq ▸ rfl)
  exact (h.forall hf hg hfg).1

/-- A change of drafts that ends in a change `g` of the record. -/
structure Carries (shape : Shape σ α) (δ : σ → σ) (g : α → α) : Prop where
  start : δ shape.start = shape.start
  given : ∀ f ∈ shape.fields, ∀ d, f.given (δ d) = f.given d
  finish : ∀ d, Mirrors True g (shape.finish d) (shape.finish (δ d))

/-- A record has `x` in it for the field of this name. -/
def Gives (shape : Shape σ α) (name : String) : Outline → Outline → Prop
  | .object ms _, x => (.ok name, x) ∈ ms
  | .array os _, x => (name, x) ∈ shape.names.zip os
  | _, _ => False

variable {shape : Shape σ α} {δ : σ → σ} {g : α → α} {d d' d₁ d₂ : σ}

theorem Gives.everyObject {P : List String → Prop} {name : String} {x : Outline}
    (h : shape.Gives name o x) (ho : o.EveryObject P) : x.EveryObject P := by
  cases o with
  | array os e => exact ho.array x (List.of_mem_zip h).2
  | object ms e => exact ho.object.2 _ h
  | _ => exact h.elim

theorem carries_id (shape : Shape σ α) : shape.Carries id id :=
  ⟨rfl, fun _ _ _ => rfl, fun d => .refl (shape.finish d)⟩

/-! ### Order -/

theorem takeMember_eq_ok {k : String} : shape.takeMember s d (.ok k, o) = .ok d' ↔
    (∃ f, shape.fields.find? (fun f => f.name = k) = some f ∧ f.given d = false ∧
      f.read s o d = .ok d') ∨
    (shape.fields.find? (fun f => f.name = k) = none ∧ shape.strict = false ∧ o.skip = .ok () ∧
      d = d') := by
  simp only [takeMember, whole_bind]
  generalize List.find? _ shape.fields = found
  rcases found with _ | f
  · rcases shape.strict with _ | _
    · rcases o.skip with fault | ⟨⟩ <;> simp
    · simp
  · rcases hgiven : f.given d with _ | _ <;> simp [hgiven]

/-- Two members with different keys can be read in either order. -/
theorem takeMember_comm (h : shape.IsApart) {m m' : Key × Outline} (hne : m.1 ≠ m'.1)
    (hm : shape.takeMember s d m = .ok d₁) (hm' : shape.takeMember s d₁ m' = .ok d₂) :
    ∃ d₁', shape.takeMember s d m' = .ok d₁' ∧ shape.takeMember s d₁' m = .ok d₂ := by
  obtain ⟨key, o⟩ := m
  obtain ⟨key', p⟩ := m'
  rcases key with _ | k
  · cases hm
  rcases key' with _ | k'
  · cases hm'
  have hk : k ≠ k' := fun h => hne (congrArg Except.ok h)
  simp only [takeMember_eq_ok] at hm hm' ⊢
  rcases hm with ⟨f, hf, hgiven, hread⟩ | ⟨hf, hstrict, hskip, rfl⟩
  · have hfname : f.name = k := by simpa using List.find?_some hf
    rcases hm' with ⟨f', hf', hgiven', hread'⟩ | ⟨hf', hstrict', hskip', rfl⟩
    · have hname' : f'.name = k' := by simpa using List.find?_some hf'
      have hmem := List.mem_of_find?_eq_some hf
      have hmem' := List.mem_of_find?_eq_some hf'
      have hne' : f.name ≠ f'.name := by rwa [hfname, hname']
      obtain ⟨d₁', hd₁', hd₂⟩ := (h f hmem f' hmem' hne').comm s o p d d₁ d₂ hread hread'
      rw [(h f' hmem' f hmem hne'.symm).given s o d d₁ hread] at hgiven'
      rw [← (h f hmem f' hmem' hne').given s p d d₁' hd₁'] at hgiven
      exact ⟨d₁', .inl ⟨f', hf', hgiven', hd₁'⟩, .inl ⟨f, hf, hgiven, hd₂⟩⟩
    · exact ⟨d, .inr ⟨hf', hstrict', hskip', rfl⟩, .inl ⟨f, hf, hgiven, hread⟩⟩
  · rcases hm' with ⟨f', hf', hgiven', hread'⟩ | ⟨hf', hstrict', hskip', rfl⟩
    · exact ⟨d₂, .inl ⟨f', hf', hgiven', hread'⟩, .inr ⟨hf, hstrict, hskip, rfl⟩⟩
    · exact ⟨d, .inr ⟨hf', hstrict', hskip', rfl⟩, .inr ⟨hf, hstrict, hskip, rfl⟩⟩

/-- **The order of members does not matter** as long as no key is there twice. -/
theorem takeMembers_perm (h : shape.IsApart) {ms ms' : List (Key × Outline)} (hperm : ms.Perm ms')
    (hkeys : (ms.map Prod.fst).Nodup) (d : σ) :
    Mirrors True id (shape.takeMembers s d ms) (shape.takeMembers s d ms') := by
  induction hperm generalizing d with
  | nil => exact .refl _
  | cons m _ ih =>
    rw [takeMembers_cons, takeMembers_cons]
    rw [List.map_cons, List.nodup_cons] at hkeys
    exact (Mirrors.refl _).bind fun d _ => ih hkeys.2 d
  | swap m m' ms =>
    -- the drafts need not be equal on the way, only behind both members
    have hne : m'.1 ≠ m.1 := by
      intro heq
      simp [heq] at hkeys
    simp only [takeMembers_cons, ← bind_assoc]
    refine Mirrors.bind (.of_eq_ok_iff fun d₂ => ?_) fun d _ => .refl _
    simp only [bind_eq_ok]
    constructor
    · rintro ⟨d₁, hm, hm'⟩
      exact ⟨d₂, takeMember_comm h hne.symm hm hm', rfl⟩
    · rintro ⟨d₃, ⟨d₁, hm, hm'⟩, rfl⟩
      exact takeMember_comm h hne hm hm'
  | trans hfirst _ ih ih' =>
    exact (ih hkeys d).trans (ih' ((hfirst.map Prod.fst).nodup_iff.mp hkeys) d)

/-! ### By way of a value -/

/-- Members in one order, and the entries that they were read as. -/
theorem takeMembers_agrees (hδ : shape.Carries δ g) (hs : s.source ≠ .table)
    {es : List (String × Json)} (hes : WholeMembers s ms es)
    (hfields : ∀ f ∈ shape.fields, ∀ x, (.ok f.name, x) ∈ ms → f.Agrees P δ x) (d : σ) :
    Mirrors P δ (shape.takeMembers s d ms)
      (shape.takeMembers .value (δ d) (es.map fun e => (.ok e.1, .ofJson e.2))) := by
  induction hes generalizing d with
  | nil => exact .ok d
  | @cons m e ms es hm _ ih =>
    obtain ⟨key, o⟩ := m
    obtain ⟨k, v⟩ := e
    obtain ⟨rfl, hv⟩ : key = .ok k ∧ o.readJson s = .ok v := hm
    rw [List.map_cons, takeMembers_cons, takeMembers_cons]
    refine Mirrors.bind ?_ fun d _ =>
      ih (fun f hf x hx => hfields f hf x (List.mem_cons_of_mem _ hx)) d
    simp only [takeMember, whole_bind, skip_of_readJson o hv, skip_ofJson]
    generalize hfind : List.find? _ shape.fields = found
    rcases found with _ | f
    · dsimp only
      split
      · exact .error _ _
      · exact .ok d
    · have hmem := List.mem_of_find?_eq_some hfind
      have hname : f.name = k := by simpa using List.find?_some hfind
      simp only [hδ.given f hmem d]
      split
      · exact .error _ _
      · exact hfields f hmem o (by simp [hname]) d s v hs hv

theorem takeItems_agrees (hs : s.source ≠ .table) {vs : List Json} (hvs : WholeItems s os vs)
    {fs : List (Field σ)} (hfields : ∀ f x, (f, x) ∈ fs.zip os → f.Agrees P δ x) (d : σ) :
    Mirrors P (fun p => (δ p.1, p.2)) (takeItems s fs os d)
      (takeItems .value fs (vs.map .ofJson) (δ d)) := by
  induction fs generalizing os vs d with
  | nil =>
    rw [takeItems, takeItems, List.length_map, ← hvs.length_eq]
    exact .ok (g := fun p : σ × Nat × Bool => (δ p.1, p.2)) (d, os.length, false)
  | cons f fs ih =>
    rcases hvs with _ | ⟨hv, hvs⟩
    · exact .ok (g := fun p : σ × Nat × Bool => (δ p.1, p.2)) (d, 0, true)
    · rw [List.map_cons, takeItems, takeItems]
      refine (hfields f _ List.mem_cons_self d s _ hs hv).bind fun d _ => ?_
      exact ih hvs (fun f x hx => hfields f x (List.mem_cons_of_mem _ hx)) d

theorem leaveList_closed (hs : s.source ≠ .table) {left total : Nat} :
    s.leaveList left total .closed = .ok () ↔ left = 0 := by
  rcases s with ⟨_ | _ | _, room⟩
  · simp [Scope.leaveList, Ending.leaveList]
  · simp [Scope.leaveList]
  · exact absurd rfl hs

theorem read_object_closed {inner : Scope} (hinner : s.enter = .ok inner) :
    shape.read s (.object ms .closed) = shape.takeMembers inner shape.start ms >>= fun d =>
      (shape.finish d).mapError fun v => .missingField v.name := by
  rw [read, hinner, ok_bind]
  rcases shape.takeMembers inner shape.start ms with fault | d
  · rfl
  · rw [ok_bind, ok_bind]
    rcases shape.finish d with v | a <;> rfl

theorem read_array_closed {inner : Scope} (hinner : s.enter = .ok inner) :
    shape.read s (.array os .closed) = takeItems inner shape.fields os shape.start >>= fun p =>
      (shape.finish p.1).mapError (fun v => .invalidLength v.place shape.lengthText) >>= fun a =>
        s.leaveList p.2.1 os.length .closed >>= fun _ => .ok a := by
  rw [read, hinner, ok_bind]
  rcases takeItems inner shape.fields os shape.start with fault | ⟨d, left, short⟩
  · rfl
  · rw [ok_bind, ok_bind]
    rcases hfinish : shape.finish d with v | a <;> cases short <;> simp only [hfinish] <;> rfl

/-- **A record agrees when its fields do.** Its members come in the order of their keys then, and
are not in each other's way. -/
theorem read_agrees (hδ : shape.Carries δ g) (hapart : shape.IsApart) (hkeys : o.KeysDistinct)
    (hfields : ∀ f ∈ shape.fields, ∀ x, shape.Gives f.name o x → f.Agrees P δ x) :
    Json.Agrees P shape.read g o := by
  intro s v hs hv
  cases o with
  | array os e =>
    obtain ⟨inner, vs, hinner, hvs, rfl, hlist⟩ := ofJson_array hv
    have hsource : inner.source ≠ .table := by rwa [Scope.enter_source hinner]
    have hvalue : Scope.value.source ≠ .table := nofun
    have hitems : ∀ f x, (f, x) ∈ shape.fields.zip os → f.Agrees P δ x := by
      intro f x hx
      refine hfields f (List.of_mem_zip hx).1 x ?_
      show (f.name, x) ∈ (shape.fields.map Field.name).zip os
      rw [List.zip_map_left]
      exact List.mem_map.mpr ⟨(f, x), hx, rfl⟩
    have htake := takeItems_agrees hsource hvs hitems shape.start
    rw [hδ.start] at htake
    rw [hlist, read_array_closed hinner, read_array_closed (s := .value) rfl]
    refine htake.bind fun p _ => ?_
    obtain ⟨d, left, short⟩ := p
    refine ((hδ.finish d).mapError _ _).bind fun a _ => ?_
    have hleave : Mirrors P id (s.leaveList left os.length .closed)
        (Scope.value.leaveList left (vs.map Outline.ofJson).length .closed) :=
      .of_eq_ok_iff fun _ => by simp [leaveList_closed hs, leaveList_closed hvalue]
    exact hleave.bind fun _ _ => .ok a
  | object ms e =>
    obtain ⟨inner, es, fs, hinner, hes, rfl, hperm, hfs, hobject⟩ := ofJson_object hv hkeys
    have hsource : inner.source ≠ .table := by rwa [Scope.enter_source hinner]
    have hkeys' : ((fs.map fun f => ((.ok f.1, .ofJson f.2) : Key × Outline)).map
        Prod.fst).Nodup := by
      have hinjective : Function.Injective (Except.ok : String → Key) := fun _ _ => Except.ok.inj
      have hnodup := hfs.nodup.map hinjective
      simpa [Entries.keys, Function.comp_def] using hnodup
    -- by way of a value in the order of the text first, and then in that of the keys
    have htake := takeMembers_agrees hδ hsource hes hfields shape.start
    have hsorted := takeMembers_perm (s := .value) hapart (hperm.map _) hkeys' shape.start
    rw [hδ.start] at htake
    rw [hobject, read_object_closed hinner, read_object_closed (s := .value) rfl]
    exact (htake.trans hsorted.symm).bind fun d _ => (hδ.finish d).mapError _ _
  | _ =>
    rw [ofJson_leaf hv trivial]
    exact .error _ _

end Shape

end Gateway.Json
