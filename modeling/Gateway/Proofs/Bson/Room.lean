import Gateway.Bson.Reader
import Gateway.Bson.Writer
import Gateway.Proofs.Json.Room
import Gateway.Proofs.Json.Written

/-!
# Document values and room

How deep a document value nests (`Bson.depth`), and that a text which holds one is read the
same whether it stands alone or inside other lists and objects (`Bson.read_room`), as long as
the nesting allowed for a text is not used up.
-/

namespace Gateway.Bson

open Gateway.Json

/-! ## Bodies under a tag -/

theorem readIdentifier_room (o : Outline) : RoomFree readIdentifier o := by
  intro n m hn hm
  cases o with
  | array items ending =>
    obtain ⟨n, rfl, _⟩ := exists_eq_succ hn
    obtain ⟨m, rfl, _⟩ := exists_eq_succ hm
    rfl
  | object members ending =>
    obtain ⟨n, rfl, _⟩ := exists_eq_succ hn
    obtain ⟨m, rfl, _⟩ := exists_eq_succ hm
    rfl
  | _ => rfl

theorem readBytes_room (o : Outline) : RoomFree (fun s o => o.readBytes s) o := by
  intro n m hn hm
  cases o with
  | array items ending =>
    obtain ⟨n, rfl, _⟩ := exists_eq_succ hn
    obtain ⟨m, rfl, _⟩ := exists_eq_succ hm
    rfl
  | _ => rfl

theorem pairShape_room {α β : Type} {title first second : String}
    {readFirst : Scope → Outline → Except Fault α} {readSecond : Scope → Outline → Except Fault β}
    (hfirst : ∀ o, RoomFree readFirst o) (hsecond : ∀ o, RoomFree readSecond o) (o : Outline) :
    RoomFree (pairShape title first second readFirst readSecond).read o := by
  apply Shape.read_room
  intro f hf d o
  simp only [pairShape, List.mem_cons, List.not_mem_nil, or_false] at hf
  rcases hf with rfl | rfl
  · exact (hfirst o).map _
  · exact (hsecond o).map _

theorem textShape_room (title name : String) (o : Outline) :
    RoomFree (textShape title name).read o := by
  apply Shape.read_room
  intro f hf d o
  simp only [textShape, List.mem_singleton] at hf
  subst hf
  exact roomFree_const (fun o => o.readString.map some) o

theorem readDate_room (o : Outline) : RoomFree readDate o := by
  intro n m hn hm
  unfold readDate
  have hwhole := readJson_room o n m hn hm
  rw [hwhole]

/-- The body under a tag is read the same for all room that holds it. -/
theorem tagged_room {tag : String} {body : Scope → Outline → Except Fault Bson}
    (h : tagged tag = some body) (o : Outline) : RoomFree body o := by
  have htexts : ∀ title first second, ∀ o, RoomFree
      (pairShape title first second (fun _ => Outline.readString) fun _ => Outline.readString).read
      o :=
    fun _ _ _ => pairShape_room (roomFree_const _) (roomFree_const _)
  unfold tagged at h
  split at h <;> cases h
  · exact (readIdentifier_room o).map _
  · exact roomFree_const _ o
  · exact roomFree_const _ o
  · exact roomFree_const _ o
  · exact roomFree_const _ o
  · exact roomFree_const _ o
  · exact (readBytes_room o).bind _
  · exact (htexts _ _ _ o).bind _
  · exact roomFree_const _ o
  · exact (pairShape_room (roomFree_const _) (roomFree_const _) o).map _
  · exact (htexts _ _ _ o).bind _
  · exact (pairShape_room (roomFree_const _) (textShape_room _ _) o).bind _
  · exact readDate_room o
  · exact roomFree_const _ o
  · exact roomFree_const _ o
  · exact roomFree_const _ o

/-! ## Values -/

mutual

theorem read_room : ∀ o : Outline, RoomFree Bson.read o
  | .null, _, _, _, _ => rfl
  | .bool _, _, _, _, _ => rfl
  | .number _, _, _, _, _ => rfl
  | .string _, _, _, _, _ => rfl
  | .raw _, _, _, _, _ => rfl
  | .broken _, _, _, _, _ => rfl
  | .array items ending, n, m, hn, hm => by
    obtain ⟨n, rfl, hin⟩ := exists_eq_succ hn
    obtain ⟨m, rfl, him⟩ := exists_eq_succ hm
    simp only [Bson.read, enter_bind, readItems_room items n m hin him]
  | .object members ending, n, m, hn, hm => by
    obtain ⟨n, rfl, hin⟩ := exists_eq_succ hn
    obtain ⟨m, rfl, him⟩ := exists_eq_succ hm
    simp only [Bson.read, enter_bind, readMembers_room members members.length ending [] n m hin him]

theorem readItems_room : ∀ (os : List Outline) (n m : Nat), Outline.depthItems os ≤ n →
    Outline.depthItems os ≤ m → readItems ⟨.text, n⟩ os = readItems ⟨.text, m⟩ os
  | [], _, _, _, _ => rfl
  | o :: os, n, m, hn, hm => by
    obtain ⟨hon, hosn⟩ := Nat.max_le.mp hn
    obtain ⟨hom, hosm⟩ := Nat.max_le.mp hm
    simp only [readItems, read_room o n m hon hom, readItems_room os n m hosn hosm]

theorem readMembers_room : ∀ (ms : List (Key × Outline)) (total : Nat) (ending : Ending)
    (doc : Document) (n m : Nat), Outline.depthMembers ms ≤ n → Outline.depthMembers ms ≤ m →
    readMembers ⟨.text, n⟩ total ending doc ms = readMembers ⟨.text, m⟩ total ending doc ms
  | [], _, _, _, _, _, _, _ => rfl
  | (.error _, _) :: _, _, _, _, _, _, _, _ => rfl
  | [(.ok k, o)], total, ending, doc, n, m, hn, hm => by
    obtain ⟨hon, _⟩ := Nat.max_le.mp hn
    obtain ⟨hom, _⟩ := Nat.max_le.mp hm
    have hleave : Scope.leaveObject ⟨.text, n⟩ = Scope.leaveObject ⟨.text, m⟩ := rfl
    cases hbody : tagged k with
    | none =>
      simp only [readMembers, whole_bind, hbody, read_room o n m hon hom,
        readDocument_room o n m hon hom]
    | some body =>
      simp only [readMembers, whole_bind, hbody, readDocument_room o n m hon hom,
        tagged_room hbody o n m hon hom, hleave]
  | (.ok k, o) :: (l, p) :: ms, total, ending, doc, n, m, hn, hm => by
    obtain ⟨hon, hrestn⟩ := Nat.max_le.mp hn
    obtain ⟨hom, hrestm⟩ := Nat.max_le.mp hm
    obtain ⟨hpn, _⟩ := Nat.max_le.mp hrestn
    obtain ⟨hpm, _⟩ := Nat.max_le.mp hrestm
    have hleave : Scope.leaveObject ⟨.text, n⟩ = Scope.leaveObject ⟨.text, m⟩ := rfl
    have hrest := fun doc => readMembers_room ((l, p) :: ms) total ending doc n m hrestn hrestm
    rw [readMembers, readMembers]
    cases hbody : tagged k with
    | none =>
      simp only [whole_bind, hbody, read_room o n m hon hom,
        readDocument_room o n m hon hom, readDocument_room p n m hpn hpm, hleave, hrest]
    | some body =>
      simp only [whole_bind, hbody, readDocument_room o n m hon hom,
        readDocument_room p n m hpn hpm, tagged_room hbody o n m hon hom, hleave]

theorem readDocument_room : ∀ o : Outline, RoomFree readDocument o
  | .object members ending, n, m, hn, hm => by
    obtain ⟨n, rfl, hin⟩ := exists_eq_succ hn
    obtain ⟨m, rfl, him⟩ := exists_eq_succ hm
    simp only [readDocument, enter_bind,
      readMembers_room members members.length ending [] n m hin him]
  | .null, _, _, _, _ => rfl
  | .bool _, _, _, _, _ => rfl
  | .number _, _, _, _, _ => rfl
  | .string _, _, _, _, _ => rfl
  | .raw _, _, _, _, _ => rfl
  | .array _ _, _, _, _, _ => rfl
  | .broken _, _, _, _, _ => rfl

end

/-! ## Depth -/

mutual

/-- How deep a value nests: every list and every document is a level, and so is a code around
the document that is its scope. -/
def depth : Bson → Nat
  | .array items => depthItems items + 1
  | .document entries => depthEntries entries + 1
  | .codeWithScope _ scope => depthEntries scope + 2
  | _ => 0

def depthItems : List Bson → Nat
  | [] => 0
  | v :: vs => max (depth v) (depthItems vs)

def depthEntries : List (String × Bson) → Nat
  | [] => 0
  | (_, v) :: es => max (depth v) (depthEntries es)

end

theorem depth_outline_number (n : Json.Number) : n.outline.depth = 0 := by
  rcases outline_number_cases n with h | ⟨value, h⟩ <;> rw [h] <;> rfl

theorem depth_outline_ofInt64 (n : Int64) : (outline (.ofInt64 n)).depth = 0 := by
  unfold Json.ofInt64
  split <;> exact depth_outline_number _

theorem depthItems_bytes (bytes : List UInt8) :
    Outline.depthItems (outlineItems (bytes.map fun b => Json.ofNatural b.toUInt64)) = 0 := by
  induction bytes with
  | nil => rfl
  | cons b bytes ih =>
    simp only [Json.ofNatural] at ih
    simp only [List.map_cons, outlineItems, Outline.depthItems, Json.ofNatural, outline,
      depth_outline_number, ih, Nat.max_self]

theorem depth_outline_binary (subtype : UInt8) (bytes : List UInt8) :
    (outline (toJson (.binary subtype bytes))).depth ≤ 2 := by
  rw [toJson]
  split
  · simp [outline, Outline.depth, depthItems_bytes]
  · simp [outline, outlineMembers, Outline.depth, Outline.depthMembers]

mutual

/-- The text of a value nests hardly deeper than the value: a kind that JSON lacks takes up
to three levels for itself. -/
theorem depth_outline_toJson : ∀ v : Bson, (outline v.toJson).depth ≤ v.depth + 3
  | .array items => by
    have h := depth_outline_toJsonItems items
    simp only [toJson, outline, Outline.depth, depth]
    omega
  | .document entries => by
    have h := depth_outline_toJsonEntries entries
    simp only [toJson, outline, Outline.depth, depth]
    omega
  | .codeWithScope source scope => by
    have h := depth_outline_toJsonEntries scope
    simp [toJson, outline, outlineMembers, Outline.depth, Outline.depthMembers, depth]
    omega
  | .int32 n => by simp [toJson, depth_outline_ofInt64]
  | .int64 n => by simp [toJson, depth_outline_ofInt64]
  | .double x => by
    rw [toJson]
    split
    · simp [outline, depth_outline_number]
    · simp [outline, Outline.depth]
  | .binary subtype bytes => by
    have h := depth_outline_binary subtype bytes
    omega
  | .null | .bool _ | .string _ | .objectId _ | .dateTime _ | .regex _ _ | .timestamp _ _
  | .code _ | .symbol _ | .decimal _ | .minKey | .maxKey | .undefined | .dbPointer _ _ => by
    simp [toJson, identifierJson, json32, Json.ofNatural, depth_outline_number, outline,
      outlineMembers, Outline.depth, Outline.depthMembers]

theorem depth_outline_toJsonItems : ∀ vs : List Bson,
    Outline.depthItems (outlineItems (toJsonItems vs)) ≤ depthItems vs + 3
  | [] => by simp [toJsonItems, outlineItems, Outline.depthItems]
  | v :: vs => by
    have hv := depth_outline_toJson v
    have hvs := depth_outline_toJsonItems vs
    simp only [toJsonItems, outlineItems, Outline.depthItems, depthItems]
    omega

theorem depth_outline_toJsonEntries : ∀ es : List (String × Bson),
    Outline.depthMembers (outlineMembers (toJsonEntries es)) ≤ depthEntries es + 3
  | [] => by simp [toJsonEntries, outlineMembers, Outline.depthMembers]
  | (_, v) :: es => by
    have hv := depth_outline_toJson v
    have hes := depth_outline_toJsonEntries es
    simp only [toJsonEntries, outlineMembers, Outline.depthMembers, depthEntries]
    omega

end

end Gateway.Bson
