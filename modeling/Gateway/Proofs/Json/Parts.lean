import Gateway.Proofs.Json.Spelled

/-!
# Parts of a text

The text of a value can be changed in one place. In place of the text of a member or an item
any text of another value may stand (`IsFrame`), also deep inside (`IsFrame.comp`), and an item
can be cut out of its list, with a comma that would be one too many (`Spells.array_item`).
-/

namespace Gateway.Json

variable {cs : List Char} {o : Outline}

/-- A text has in it a text of `o`. With the text of another value in its place it is what
`Exchanged` says of that value. -/
def HasPart (cs : List Char) (o : Outline) (Exchanged : Outline → List Char → Prop) : Prop :=
  ∃ pre x post, cs = pre ++ (x ++ post) ∧ Spells x o ∧
    ∀ x' o', Spells x' o' → Exchanged o' (pre ++ (x' ++ post))

/-- What is cut out with an item: nothing, or a comma behind it or in front. -/
inductive Adjoins : List Char → List Char → Prop where
  | alone : Adjoins [] []
  | behind {w : List Char} (hw : IsBlank w) : Adjoins [] (w ++ [','])
  | front : Adjoins [','] []

/-- A text has in it a text of `o`, perhaps with a comma. When both are cut out it is what
`Without` says, and with the text of another value in place of that of `o` what `Exchanged`
says. -/
def HasItem (cs : List Char) (o : Outline) (Without : List Char → Prop)
    (Exchanged : Outline → List Char → Prop) : Prop :=
  ∃ pre a x b post, cs = pre ++ (a ++ (x ++ (b ++ post))) ∧ Adjoins a b ∧ Spells x o ∧
    Without (pre ++ post) ∧
    ∀ x' o', Spells x' o' → Exchanged o' (pre ++ (a ++ (x' ++ (b ++ post))))

section Parts

variable {E F : Outline → List Char → Prop} {W V : List Char → Prop}

theorem HasItem.inside (front back : List Char) (h : HasItem cs o W E)
    (hwithout : ∀ x, W x → V (front ++ (x ++ back)))
    (hexchanged : ∀ o x, E o x → F o (front ++ (x ++ back))) :
    HasItem (front ++ (cs ++ back)) o V F := by
  obtain ⟨pre, a, x, b, post, rfl, hadjoins, hx, hw, he⟩ := h
  refine ⟨front ++ pre, a, x, b, post ++ back, by simp, hadjoins, hx, ?_, fun x' o' hx' => ?_⟩
  · simpa using hwithout _ hw
  · simpa using hexchanged _ _ (he x' o' hx')

theorem HasPart.inside (front back : List Char) (h : HasPart cs o E)
    (hexchanged : ∀ o x, E o x → F o (front ++ (x ++ back))) :
    HasPart (front ++ (cs ++ back)) o F := by
  obtain ⟨pre, x, post, rfl, hx, he⟩ := h
  refine ⟨front ++ pre, x, post ++ back, by simp, hx, fun x' o' hx' => ?_⟩
  simpa using hexchanged _ _ (he x' o' hx')

theorem HasItem.part (h : HasItem cs o W E) : HasPart cs o E := by
  obtain ⟨pre, a, x, b, post, rfl, -, hx, -, he⟩ := h
  refine ⟨pre ++ a, x, b ++ post, by simp, hx, fun x' o' hx' => ?_⟩
  simpa using he x' o' hx'

end Parts

/-- Each of several items has a comma to go with. -/
theorem SpellsItems.hasItem {os₁ os₂ : List Outline} (h : SpellsItems cs (os₁ ++ o :: os₂))
    (hne : os₁ ++ os₂ ≠ []) :
    HasItem cs o (fun x => SpellsItems x (os₁ ++ os₂))
      (fun o' x => SpellsItems x (os₁ ++ o' :: os₂)) := by
  induction os₁ generalizing cs with
  | nil =>
    cases h with
    | last => exact absurd rfl hne
    | @comma x w y _ _ hx hw hy =>
      refine ⟨[], [], x, w ++ [','], y, by simp, .behind hw, hx, hy, fun x' o' hx' => ?_⟩
      simpa using SpellsItems.comma hx' hw hy
  | cons o₁ os₁ ih =>
    rw [List.cons_append] at h
    generalize htail : os₁ ++ o :: os₂ = tail at h
    cases h with
    | last => simp at htail
    | @comma x w y _ _ hx hw hy =>
      subst htail
      by_cases hrest : os₁ ++ os₂ = []
      · -- the last one of two goes with the comma in front
        obtain ⟨rfl, rfl⟩ := List.append_eq_nil_iff.mp hrest
        cases hy with
        | comma _ _ hnone => cases hnone
        | @last z u _ hz hu =>
          refine ⟨x ++ w, [','], z, [], u ++ [']'], by simp, .front, hz, ?_, fun z' o' hz' => ?_⟩
          · simpa using SpellsItems.last hx (hw.append hu)
          · simpa using SpellsItems.comma hx hw (.last hz' hu)
      · have hinside := (ih hy hrest).inside (x ++ (w ++ [','])) []
          (V := fun x => SpellsItems x (o₁ :: (os₁ ++ os₂)))
          (F := fun o' x => SpellsItems x (o₁ :: (os₁ ++ o' :: os₂)))
          (fun z hz => by simpa using SpellsItems.comma hx hw hz)
          (fun o' z hz => by simpa using SpellsItems.comma hx hw hz)
        simpa using hinside

/-- **An item of a list can be exchanged or cut out.** Cut out with a comma, if there is one, it
leaves the text of the list without it. -/
theorem Spells.array_item {os₁ os₂ : List Outline}
    {e : Ending} (h : Spells cs (.array (os₁ ++ o :: os₂) e)) :
    HasItem cs o (fun x => Spells x (.array (os₁ ++ os₂) e))
      (fun o' x => Spells x (.array (os₁ ++ o' :: os₂) e)) := by
  obtain ⟨rfl, w, y, hw, rfl, ⟨hnil, -⟩ | hy⟩ := h.array_cases
  · simp at hnil
  by_cases hne : os₁ ++ os₂ = []
  · obtain ⟨rfl, rfl⟩ := List.append_eq_nil_iff.mp hne
    cases hy with
    | comma _ _ hnone => cases hnone
    | @last z u _ hz hu =>
      refine ⟨w ++ ['['], [], z, [], u ++ [']'], by simp, .alone, hz, ?_, fun z' o' hz' => ?_⟩
      · simpa using (Spells.emptyArray hu).blank hw
      · simpa using (Spells.array (.last hz' hu)).blank hw
  · have hinside := (hy.hasItem hne).inside (w ++ ['[']) []
      (V := fun x => Spells x (.array (os₁ ++ os₂) .closed))
      (F := fun o' x => Spells x (.array (os₁ ++ o' :: os₂) .closed))
      (fun z hz => by simpa using (Spells.array hz).blank hw)
      (fun o' z hz => by simpa using (Spells.array hz).blank hw)
    simpa using hinside

theorem SpellsMembers.hasPart {key : Key} {ms₁ ms₂ : List (Key × Outline)}
    (h : SpellsMembers cs (ms₁ ++ (key, o) :: ms₂)) :
    HasPart cs o (fun o' x => SpellsMembers x (ms₁ ++ (key, o') :: ms₂)) := by
  induction ms₁ generalizing cs with
  | nil =>
    cases h with
    | @last l x w _ _ hl hx hw =>
      exact ⟨l, x, w ++ ['}'], rfl, hx, fun x' o' hx' => .last hl hx' hw⟩
    | @comma l x w y _ _ _ hl hx hw hy =>
      exact ⟨l, x, w ++ ',' :: y, rfl, hx, fun x' o' hx' => .comma hl hx' hw hy⟩
  | cons m ms₁ ih =>
    obtain ⟨key₁, o₁⟩ := m
    rw [List.cons_append] at h
    generalize htail : ms₁ ++ (key, o) :: ms₂ = tail at h
    cases h with
    | last => simp at htail
    | @comma l x w y _ _ _ hl hx hw hy =>
      subst htail
      have hinside := (ih hy).inside (l ++ (x ++ (w ++ [',']))) []
        (F := fun o' x => SpellsMembers x ((key₁, o₁) :: (ms₁ ++ (key, o') :: ms₂)))
        (fun o' z hz => by simpa using SpellsMembers.comma hl hx hw hz)
      simpa using hinside

/-- A value of an object can be exchanged. -/
theorem Spells.object_part {key : Key} {ms₁ ms₂ : List (Key × Outline)}
    {e : Ending} (h : Spells cs (.object (ms₁ ++ (key, o) :: ms₂) e)) :
    HasPart cs o (fun o' x => Spells x (.object (ms₁ ++ (key, o') :: ms₂) e)) := by
  obtain ⟨rfl, w, y, hw, rfl, ⟨hnil, -⟩ | hy⟩ := h.object_cases
  · simp at hnil
  have hinside := hy.hasPart.inside (w ++ ['{']) []
    (F := fun o' x => Spells x (.object (ms₁ ++ (key, o') :: ms₂) .closed))
    (fun o' z hz => by simpa using (Spells.object hz).blank hw)
  simpa using hinside

/-! ## Frames -/

/-- An outline with a place in it, such that in every text of it the text of what stands there
can be exchanged. -/
def IsFrame (C : Outline → Outline) : Prop :=
  ∀ cs o, Spells cs (C o) → HasPart cs o fun o' x => Spells x (C o')

theorem isFrame_item (os₁ os₂ : List Outline) (e : Ending) :
    IsFrame fun o => .array (os₁ ++ o :: os₂) e := fun _ _ h => h.array_item.part

theorem isFrame_member (key : Key) (ms₁ ms₂ : List (Key × Outline)) (e : Ending) :
    IsFrame fun o => .object (ms₁ ++ (key, o) :: ms₂) e := fun _ _ h => h.object_part

/-- In a frame an item of a list can be exchanged or cut out. -/
theorem IsFrame.item {C : Outline → Outline} (hC : IsFrame C) {os₁ os₂ : List Outline}
    {e : Ending} (h : Spells cs (C (.array (os₁ ++ o :: os₂) e))) :
    HasItem cs o (fun x => Spells x (C (.array (os₁ ++ os₂) e)))
      (fun o' x => Spells x (C (.array (os₁ ++ o' :: os₂) e))) := by
  obtain ⟨pre, x, post, rfl, hx, he⟩ := hC cs _ h
  exact hx.array_item.inside pre post (fun x' hx' => he x' _ hx') fun _ x' hx' => he x' _ hx'

theorem IsFrame.comp {C D : Outline → Outline} (hC : IsFrame C) (hD : IsFrame D) :
    IsFrame fun o => C (D o) := by
  intro cs o h
  obtain ⟨pre, x, post, rfl, hx, he⟩ := hC cs (D o) h
  exact (hD x o hx).inside pre post fun o' x' hx' => he x' (D o') hx'

end Gateway.Json
