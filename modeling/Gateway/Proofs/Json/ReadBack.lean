import Gateway.Decode
import Gateway.Proofs.Json.Room
import Gateway.Proofs.Json.Written
import Mathlib.Data.List.Forall2

/-!
# Reading back what was written

A value that was written is read in two ways: as a text from front to back, and by way of a
value that was read whole from the text before, with its members sorted. `ReadsBack` says that
both ways succeed with something that is as it should be.

The two ways go through a record or a list part by part, each part with less room than the
whole. `ReadsAs` says of a part what `ReadsBack` says of a text, and is put together here for
strings, numbers, options and lists; a record is a matter of its own fields.
-/

namespace Gateway.Json

variable {α β γ : Type}

/-- What is written as `v` is read as something `good`, as a text by `ofText` and by way of a
value by `ofJson`. -/
structure ReadsBack (ofText : String → Except Failure α) (ofJson : Json → Except Failure α)
    (good : α → Prop) (v : Json) : Prop where
  streamed : ∃ a, ofText v.render = .ok a ∧ good a
  whole : ∃ w a, Json.decode v.render = .ok w ∧ ofJson w = .ok a ∧ good a

/-- At room `n` a part that is written as `v` is read as something `good`, at once and by way
of a value. -/
structure ReadsAs (read : Scope → Outline → Except Fault α) (n : Nat) (good : α → Prop)
    (v : Json) : Prop where
  streamed : ∃ a, read ⟨.text, n⟩ v.outline = .ok a ∧ good a
  whole : ∃ w a, Outline.readJson ⟨.text, n⟩ v.outline = .ok w ∧
    read .value (.ofJson w) = .ok a ∧ good a

/-! ## Texts and their parts -/

theorem mapError_eq_ok {ε ε' : Type} {f : ε → ε'} {x : Except ε α} {a : α} :
    x.mapError f = .ok a ↔ x = .ok a := by
  cases x <;> simp [Except.mapError]

theorem bind_eq_ok {ε : Type} {x : Except ε α} {f : α → Except ε β} {b : β} :
    (x >>= f) = .ok b ↔ ∃ a, x = .ok a ∧ f a = .ok b := by
  cases x with
  | error e => simp [bind, Except.bind]
  | ok a => simp [bind, Except.bind]

/-- A text is read when its outline is and nothing else follows. -/
theorem decodeText_eq_ok {read : Scope → Outline → Except Fault α} {t : String} {a : α} :
    decodeText read t = .ok a ↔
      read .text (Layout.ofText t).value = .ok a ∧ (Layout.ofText t).trailing = false := by
  unfold decodeText readText
  rw [mapError_eq_ok, bind_eq_ok]
  constructor
  · rintro ⟨a', hread, h⟩
    split at h
    · cases h
    · cases h
      rename_i htrailing
      exact ⟨hread, Bool.eq_false_iff.mpr htrailing⟩
  · rintro ⟨hread, htrailing⟩
    exact ⟨a, hread, by rw [htrailing]; rfl⟩

/-- The text of a value is read as its outline is. -/
theorem decodeText_render (read : Scope → Outline → Except Fault α) (v : Json) :
    decodeText read v.render = (read .text v.outline).mapError .ofFault := by
  unfold decodeText readText
  rw [ofText_render]
  dsimp only
  cases read .text v.outline <;> rfl

variable {read : Scope → Outline → Except Fault α} {good : α → Prop} {v : Json}

/-- A whole text is a part with all the room that there is. -/
theorem readsBack_iff :
    ReadsBack (decodeText read) (decodeValue read) good v ↔ ReadsAs read maxDepth good v := by
  unfold decodeValue readValue
  constructor
  · rintro ⟨⟨a, ha, hgood⟩, ⟨w, b, hw, hb, hgood'⟩⟩
    rw [decodeText_render, mapError_eq_ok] at ha
    rw [Json.decode, decodeText_render, mapError_eq_ok] at hw
    exact ⟨⟨a, ha, hgood⟩, ⟨w, b, hw, mapError_eq_ok.mp hb, hgood'⟩⟩
  · rintro ⟨⟨a, ha, hgood⟩, ⟨w, b, hw, hb, hgood'⟩⟩
    refine ⟨⟨a, ?_, hgood⟩, ⟨w, b, ?_, mapError_eq_ok.mpr hb, hgood'⟩⟩
    · rw [decodeText_render, mapError_eq_ok]
      exact ha
    · rw [Json.decode, decodeText_render, mapError_eq_ok]
      exact hw

theorem ReadsAs.imp {good' : α → Prop} {n : Nat} (h : ReadsAs read n good v)
    (himp : ∀ a, good a → good' a) : ReadsAs read n good' v := by
  obtain ⟨⟨a, ha, hgood⟩, ⟨w, b, hw, hb, hgood'⟩⟩ := h
  exact ⟨⟨a, ha, himp a hgood⟩, ⟨w, b, hw, hb, himp b hgood'⟩⟩

/-- A reader that does not mind the room reads a part wherever it fits. -/
theorem ReadsAs.room {n m : Nat} (hread : ∀ o, RoomFree read o) (h : ReadsAs read n good v)
    (hn : v.outline.depth ≤ n) (hm : v.outline.depth ≤ m) : ReadsAs read m good v := by
  obtain ⟨⟨a, ha, hgood⟩, ⟨w, b, hw, hb, hgood'⟩⟩ := h
  refine ⟨⟨a, ?_, hgood⟩, ⟨w, b, ?_, hb, hgood'⟩⟩
  · rw [hread _ m n hm hn, ha]
  · rw [readJson_room _ m n hm hn, hw]

/-! ## Plain parts -/

theorem readsAs_string (s : String) (n : Nat) :
    ReadsAs (fun _ => Outline.readString) n (· = s) (.string s) :=
  ⟨⟨s, rfl, rfl⟩, ⟨.string s, s, rfl, rfl, rfl⟩⟩

theorem readsAs_bool (b : Bool) (n : Nat) :
    ReadsAs (fun _ => Outline.readBool) n (· = b) (.bool b) :=
  ⟨⟨b, rfl, rfl⟩, ⟨.bool b, b, rfl, rfl, rfl⟩⟩

theorem readWord_natural (n : UInt64) :
    Outline.readWord (.number (.ok (.natural n))) = .ok n := by
  have hread : Outline.readNatural wordBound "u64" (.number (.ok (.natural n))) = .ok n.toNat := by
    show (if n.toNat ≤ wordBound then Except.ok n.toNat else _) = _
    rw [if_pos (toNat_le_wordBound n)]
  rw [Outline.readWord, hread]
  simp [Except.map]

theorem readsAs_word (word : UInt64) (n : Nat) :
    ReadsAs (fun _ => Outline.readWord) n (· = word) (.ofNatural word) := by
  have hword := readWord_natural word
  refine ⟨⟨word, ?_, rfl⟩, ⟨.ofNatural word, word, ?_, hword, rfl⟩⟩
  · rw [outline_natural]
    exact hword
  · rw [outline_natural]
    rfl

/-! ## Options -/

/-- Only null is read whole as null. -/
theorem eq_null_of_readJson {s : Scope} {o : Outline} (h : o.readJson s = .ok .null) :
    o = .null := by
  cases o with
  | null => rfl
  | number value => cases value <;> cases h
  | array items ending =>
    simp only [Outline.readJson, bind_eq_ok] at h
    obtain ⟨_, _, _, _, _, _, hnull⟩ := h
    cases hnull
  | object members ending =>
    simp only [Outline.readJson, bind_eq_ok] at h
    obtain ⟨_, _, _, _, _, _, hnull⟩ := h
    cases hnull
  | _ => cases h

theorem eq_null_of_ofJson {w : Json} (h : Outline.ofJson w = .null) : w = .null := by
  cases w with
  | null => rfl
  | _ => cases h

theorem readOption_of_ne_null {o : Outline} (h : o ≠ .null) (read : Outline → Except Fault α) :
    o.readOption read = (read o).map some := by
  cases o with
  | null => exact absurd rfl h
  | _ => rfl

/-- An option is read as what it holds, if that is not written as null. -/
theorem readsAs_option {write : γ → Json} {good : γ → α → Prop} {n : Nat} (o : Option γ)
    (h : ∀ c ∈ o, ReadsAs read n (good c) (write c)) (hnull : ∀ c, (write c).outline ≠ .null) :
    ReadsAs (fun s o => o.readOption (read s)) n (Option.Rel good o) (.ofOption write o) := by
  cases o with
  | none => exact ⟨⟨none, rfl, .none⟩, ⟨.null, none, rfl, rfl, .none⟩⟩
  | some c =>
    obtain ⟨⟨a, ha, hgood⟩, ⟨w, b, hw, hb, hgood'⟩⟩ := h c rfl
    have hne : Outline.ofJson w ≠ .null := by
      intro heq
      rw [eq_null_of_ofJson heq] at hw
      exact hnull c (eq_null_of_readJson hw)
    refine ⟨⟨some a, ?_, .some hgood⟩, ⟨w, some b, hw, ?_, .some hgood'⟩⟩
    · show (write c).outline.readOption (read ⟨.text, n⟩) = _
      rw [readOption_of_ne_null (hnull c), ha]
      rfl
    · show (Outline.ofJson w).readOption (read .value) = _
      rw [readOption_of_ne_null hne, hb]
      rfl

theorem eq_of_rel_eq {o p : Option α} (h : Option.Rel (fun a b => b = a) o p) : p = o := by
  cases h with
  | none => rfl
  | some h => rw [h]

/-- An option of a value that comes back as itself does so too. -/
theorem readsAs_option_eq {write : α → Json} {n : Nat} (o : Option α)
    (h : ∀ c ∈ o, ReadsAs read n (· = c) (write c)) (hnull : ∀ c, (write c).outline ≠ .null) :
    ReadsAs (fun s o => o.readOption (read s)) n (· = o) (.ofOption write o) :=
  (readsAs_option o h hnull).imp fun _ => eq_of_rel_eq

/-- A text that may be absent. -/
theorem readsAs_text (n : Nat) (text : Option String) :
    ReadsAs (fun _ o => o.readOption Outline.readString) n (· = text) (.ofOption .string text) :=
  readsAs_option_eq text (fun s _ => readsAs_string s n) fun _ => nofun

/-- A natural number that may be absent. -/
theorem readsAs_optionalWord (n : Nat) (word : Option UInt64) :
    ReadsAs (fun _ o => o.readOption Outline.readWord) n (· = word)
      (.ofOption .ofNatural word) := by
  apply readsAs_option_eq word fun w _ => readsAs_word w n
  intro w
  rw [outline_natural]
  nofun

/-! ## Lists -/

theorem readItems_outline {write : γ → Json} {good : γ → α → Prop} {n : Nat}
    (cs : List γ) (h : ∀ c ∈ cs, ReadsAs read n (good c) (write c)) :
    (∃ as, (outlineItems (cs.map write)).mapM (read ⟨.text, n⟩) = .ok as ∧
      List.Forall₂ good cs as) ∧
    ∃ ws bs, Outline.readItems ⟨.text, n⟩ (outlineItems (cs.map write)) = .ok ws ∧
      (Outline.ofItems ws).mapM (read .value) = .ok bs ∧ List.Forall₂ good cs bs := by
  induction cs with
  | nil => exact ⟨⟨[], rfl, .nil⟩, ⟨[], [], rfl, rfl, .nil⟩⟩
  | cons c cs ih =>
    obtain ⟨⟨a, ha, hgood⟩, ⟨w, b, hw, hb, hgood'⟩⟩ := h c List.mem_cons_self
    obtain ⟨⟨as, has, hgoods⟩, ⟨ws, bs, hws, hbs, hgoods'⟩⟩ :=
      ih fun c hc => h c (List.mem_cons_of_mem _ hc)
    refine ⟨⟨a :: as, ?_, .cons hgood hgoods⟩, ⟨w :: ws, b :: bs, ?_, ?_, .cons hgood' hgoods'⟩⟩
    · simp only [List.map_cons, outlineItems, List.mapM_cons, ha, has]
      rfl
    · simp only [List.map_cons, outlineItems, Outline.readItems, hw, hws]
      rfl
    · simp only [Outline.ofItems, List.mapM_cons, hb, hbs]
      rfl

/-- A list is read as its items, each with one level less of room. -/
theorem readsAs_list {write : γ → Json} {good : γ → α → Prop} {n : Nat} (cs : List γ)
    (h : ∀ c ∈ cs, ReadsAs read n (good c) (write c)) :
    ReadsAs (fun s o => o.readList read s) (n + 1) (List.Forall₂ good cs)
      (.array (cs.map write)) := by
  obtain ⟨⟨as, has, hgood⟩, ⟨ws, bs, hws, hbs, hgood'⟩⟩ := readItems_outline cs h
  refine ⟨⟨as, ?_, hgood⟩, ⟨.array ws, bs, ?_, ?_, hgood'⟩⟩
  · simp only [outline, Outline.readList, enter_bind, has]
    rfl
  · simp only [outline, Outline.readJson, enter_bind, hws]
    rfl
  · show ((Outline.ofItems ws).mapM (read .value) >>= fun values => pure values) = _
    rw [hbs]
    rfl

theorem eq_of_forall₂_eq {cs as : List α} (h : List.Forall₂ (fun a b => b = a) cs as) :
    as = cs := by
  induction h with
  | nil => rfl
  | cons h _ ih => rw [h, ih]

/-- A list of values that come back as themselves does so too. -/
theorem readsAs_list_eq {write : α → Json} {n : Nat} (cs : List α)
    (h : ∀ c ∈ cs, ReadsAs read n (· = c) (write c)) :
    ReadsAs (fun s o => o.readList read s) (n + 1) (· = cs) (.array (cs.map write)) :=
  (readsAs_list cs h).imp fun _ => eq_of_forall₂_eq

/-! ## Records -/

theorem Shape.read_closed {σ : Type} {shape : Shape σ α} {s inner : Scope}
    {ms : List (Key × Outline)} {d : σ} {a : α} (henter : s.enter = .ok inner)
    (htake : shape.takeMembers inner shape.start ms = .ok d) (hfinish : shape.finish d = .ok a) :
    shape.read s (.object ms .closed) = .ok a := by
  simp only [Shape.read, henter, htake, hfinish, ok_bind, Ending.ofObject]

/-- An object is read as a record when its members fill a draft, in their order and sorted. -/
theorem readsAs_record {σ : Type} {shape : Shape σ α} {ms : List (String × Json)} {n : Nat}
    (hstreamed : ∃ d a, shape.takeMembers ⟨.text, n⟩ shape.start (outlineMembers ms) = .ok d ∧
      shape.finish d = .ok a ∧ good a)
    (hwhole : ∃ ws d a, Outline.readMembers ⟨.text, n⟩ (outlineMembers ms) = .ok ws ∧
      shape.takeMembers .value shape.start (Outline.ofMembers (Entries.sorted ws)) = .ok d ∧
      shape.finish d = .ok a ∧ good a) :
    ReadsAs shape.read (n + 1) good (.object ms) := by
  obtain ⟨d, a, htake, hfinish, hgood⟩ := hstreamed
  obtain ⟨ws, e, b, hws, htake', hfinish', hgood'⟩ := hwhole
  refine ⟨⟨a, ?_, hgood⟩, ⟨.object (Entries.sorted ws), b, ?_, ?_, hgood'⟩⟩
  · exact Shape.read_closed rfl htake hfinish
  · simp only [outline, Outline.readJson, enter_bind, hws, ok_bind, Ending.ofObject]
    rfl
  · exact Shape.read_closed rfl htake' hfinish'

end Gateway.Json
