import Gateway.Json.Reader

/-!
# Room enough

A text may nest only so deep, and a reader inside a list or an object has less room than one
at the front. As long as the room holds what is read (`Outline.depth`), though, it makes no
difference how much there is: `RoomFree` readers give the same answer for all of it. Values
read whole and records of such fields are read this way (`readJson_room`, `Shape.read_room`).
-/

namespace Gateway.Json

/-! ## Depth -/

namespace Outline

mutual

/-- How deep the lists and objects of an outline nest. -/
def depth : Outline → Nat
  | .array items _ => depthItems items + 1
  | .object members _ => depthMembers members + 1
  | _ => 0

def depthItems : List Outline → Nat
  | [] => 0
  | o :: os => max (depth o) (depthItems os)

def depthMembers : List (Key × Outline) → Nat
  | [] => 0
  | (_, o) :: ms => max (depth o) (depthMembers ms)

end

end Outline

/-- The answer of a reader for `o` is the same for all room that holds it. -/
def RoomFree {α : Type} (read : Scope → Outline → Except Fault α) (o : Outline) : Prop :=
  ∀ n m, o.depth ≤ n → o.depth ≤ m → read ⟨.text, n⟩ o = read ⟨.text, m⟩ o

variable {α σ : Type}

theorem roomFree_const (read : Outline → Except Fault α) (o : Outline) :
    RoomFree (fun _ => read) o := fun _ _ _ _ => rfl

theorem RoomFree.bind {β : Type} {read : Scope → Outline → Except Fault α} {o : Outline}
    (h : RoomFree read o) (next : α → Except Fault β) :
    RoomFree (fun s o => read s o >>= next) o := by
  intro n m hn hm
  show read ⟨.text, n⟩ o >>= next = read ⟨.text, m⟩ o >>= next
  rw [h n m hn hm]

theorem RoomFree.map {β : Type} {read : Scope → Outline → Except Fault α} {o : Outline}
    (h : RoomFree read o) (f : α → β) : RoomFree (fun s o => (read s o).map f) o := by
  intro n m hn hm
  show (read ⟨.text, n⟩ o).map f = (read ⟨.text, m⟩ o).map f
  rw [h n m hn hm]

/-- Where there is room for one more level, a reader enters and has one less. -/
@[simp]
theorem enter_bind (n : Nat) (next : Scope → Except Fault α) :
    (Scope.enter ⟨.text, n + 1⟩ >>= next) = next ⟨.text, n⟩ := rfl

@[simp]
theorem ok_bind {β : Type} (b : β) (next : β → Except Fault α) :
    ((Except.ok b : Except Fault β) >>= next) = next b := rfl

@[simp]
theorem whole_bind {β : Type} (b : β) (next : β → Except Fault α) :
    (whole (.ok b) >>= next) = next b := rfl

theorem exists_eq_succ {d n : Nat} (h : d + 1 ≤ n) : ∃ k, n = k + 1 ∧ d ≤ k := by
  cases n with
  | zero => exact absurd h (Nat.not_succ_le_zero d)
  | succ k => exact ⟨k, rfl, Nat.le_of_succ_le_succ h⟩

/-! ## Values read whole -/

mutual

theorem readJson_room : ∀ o : Outline, RoomFree Outline.readJson o
  | .null, _, _, _, _ => rfl
  | .bool _, _, _, _, _ => rfl
  | .number _, _, _, _, _ => rfl
  | .string _, _, _, _, _ => rfl
  | .raw _, _, _, _, _ => rfl
  | .broken _, _, _, _, _ => rfl
  | .array items ending, n, m, hn, hm => by
    obtain ⟨n, rfl, hin⟩ := exists_eq_succ hn
    obtain ⟨m, rfl, him⟩ := exists_eq_succ hm
    simp only [Outline.readJson, enter_bind, readItems_room items n m hin him]
  | .object members ending, n, m, hn, hm => by
    obtain ⟨n, rfl, hin⟩ := exists_eq_succ hn
    obtain ⟨m, rfl, him⟩ := exists_eq_succ hm
    simp only [Outline.readJson, enter_bind, readMembers_room members n m hin him]

theorem readItems_room : ∀ (os : List Outline) (n m : Nat), Outline.depthItems os ≤ n →
    Outline.depthItems os ≤ m →
    Outline.readItems ⟨.text, n⟩ os = Outline.readItems ⟨.text, m⟩ os
  | [], _, _, _, _ => rfl
  | o :: os, n, m, hn, hm => by
    obtain ⟨hon, hosn⟩ := Nat.max_le.mp hn
    obtain ⟨hom, hosm⟩ := Nat.max_le.mp hm
    simp only [Outline.readItems, readJson_room o n m hon hom, readItems_room os n m hosn hosm]

theorem readMembers_room : ∀ (ms : List (Key × Outline)) (n m : Nat),
    Outline.depthMembers ms ≤ n → Outline.depthMembers ms ≤ m →
    Outline.readMembers ⟨.text, n⟩ ms = Outline.readMembers ⟨.text, m⟩ ms
  | [], _, _, _, _ => rfl
  | (_, o) :: ms, n, m, hn, hm => by
    obtain ⟨hon, hmsn⟩ := Nat.max_le.mp hn
    obtain ⟨hom, hmsm⟩ := Nat.max_le.mp hm
    simp only [Outline.readMembers, readJson_room o n m hon hom,
      readMembers_room ms n m hmsn hmsm]

end

/-! ## Records -/

/-- A field is read the same for all room that holds it. -/
def Field.IsRoomFree (f : Field σ) : Prop := ∀ d o, RoomFree (fun s o => f.read s o d) o

namespace Shape

variable {shape : Shape σ α}

theorem takeMembers_room (h : ∀ f ∈ shape.fields, f.IsRoomFree) (ms : List (Key × Outline))
    (d : σ) {n m : Nat} (hn : Outline.depthMembers ms ≤ n) (hm : Outline.depthMembers ms ≤ m) :
    shape.takeMembers ⟨.text, n⟩ d ms = shape.takeMembers ⟨.text, m⟩ d ms := by
  induction ms generalizing d with
  | nil => rfl
  | cons e ms ih =>
    obtain ⟨key, o⟩ := e
    obtain ⟨hon, hmsn⟩ := Nat.max_le.mp hn
    obtain ⟨hom, hmsm⟩ := Nat.max_le.mp hm
    cases key with
    | error m => rfl
    | ok k =>
      simp only [takeMembers, whole_bind]
      split
      next f hfind =>
        have hread := h f (List.mem_of_find?_eq_some hfind) d o n m hon hom
        simp only [hread, ih _ hmsn hmsm]
      next => simp only [ih _ hmsn hmsm]

theorem takeItems_room {fs : List (Field σ)} (h : ∀ f ∈ fs, f.IsRoomFree) (os : List Outline)
    (d : σ) {n m : Nat} (hn : Outline.depthItems os ≤ n) (hm : Outline.depthItems os ≤ m) :
    takeItems ⟨.text, n⟩ fs os d = takeItems ⟨.text, m⟩ fs os d := by
  induction fs generalizing os d with
  | nil => rfl
  | cons f fs ih =>
    cases os with
    | nil => rfl
    | cons o os =>
      obtain ⟨hon, hosn⟩ := Nat.max_le.mp hn
      obtain ⟨hom, hosm⟩ := Nat.max_le.mp hm
      have hread := h f List.mem_cons_self d o n m hon hom
      have hrest := fun d => ih (fun f hf => h f (List.mem_cons_of_mem _ hf)) os d hosn hosm
      simp only [takeItems, hread, hrest]

/-- A record of fields that do not mind the room does not mind it either. -/
theorem read_room (h : ∀ f ∈ shape.fields, f.IsRoomFree) (o : Outline) :
    RoomFree shape.read o := by
  intro n m hn hm
  cases o with
  | object members ending =>
    obtain ⟨n, rfl, hin⟩ := exists_eq_succ hn
    obtain ⟨m, rfl, him⟩ := exists_eq_succ hm
    simp only [read, enter_bind, takeMembers_room h members _ hin him]
  | array items ending =>
    obtain ⟨n, rfl, hin⟩ := exists_eq_succ hn
    obtain ⟨m, rfl, him⟩ := exists_eq_succ hm
    simp only [read, enter_bind, takeItems_room h items _ hin him]
    rfl
  | _ => rfl

end Shape

end Gateway.Json
