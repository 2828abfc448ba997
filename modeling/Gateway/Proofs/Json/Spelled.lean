import Gateway.Proofs.Json.Token
import Gateway.Proofs.Json.Written

/-!
# Texts of values

A text spells a value if it is laid out as this value and consumed, whatever may follow it
(`Spells`). The text of a list is the texts of its items between brackets and commas, and the
text of an object that of its members: so it is spelled (`Spells.array`, `Spells.object`), and
so it was spelled when a scan has found it (`spells_of_scanValue`). A whole text that was laid
out without a flaw at its end is such a text and blanks (`spells_of_ofText`).
-/

namespace Gateway.Json

open Gateway.Decimal (isDigit)

/-! ## Blanks -/

def IsBlank (w : List Char) : Prop := ∀ c ∈ w, isSpace c

theorem isBlank_nil : IsBlank [] := by simp [IsBlank]

theorem IsBlank.append {w u : List Char} (hw : IsBlank w) (hu : IsBlank u) : IsBlank (w ++ u) := by
  intro c hc
  rcases List.mem_append.mp hc with hc | hc
  · exact hw c hc
  · exact hu c hc

variable {w cs rest : List Char} {fuel : Nat} {o : Outline}

theorem IsBlank.skipSpace_append (h : IsBlank w) (cs : List Char) :
    skipSpace (w ++ cs) = skipSpace cs := List.dropWhile_append_of_pos h

/-- A text is blanks and then what stands there without them. -/
theorem exists_blank (cs : List Char) : ∃ w, IsBlank w ∧ cs = w ++ skipSpace cs :=
  ⟨cs.takeWhile isSpace, fun _ hc => List.mem_takeWhile_imp hc, List.takeWhile_append_dropWhile.symm⟩

theorem isSpace_of_skipSpace {c : Char} {tail : List Char} (h : skipSpace cs = c :: tail) :
    isSpace c = false := by
  have hnot := List.head?_dropWhile_not isSpace cs
  rw [skipSpace] at h
  rw [h] at hnot
  simpa using hnot

theorem IsBlank.follows (hw : IsBlank w) (hrest : Follows rest) : Follows (w ++ rest) := by
  cases w with
  | nil => exact hrest
  | cons c w =>
    intro d hd
    obtain rfl : c = d := by simpa using hd
    exact .inl (hw c List.mem_cons_self)

theorem IsBlank.scanValue (hw : IsBlank w) (fuel : Nat) (cs : List Char) :
    scanValue fuel (w ++ cs) = scanValue fuel cs := by
  cases fuel with
  | zero => rfl
  | succ fuel => rw [Json.scanValue, Json.scanValue, hw.skipSpace_append]

theorem IsBlank.scanItems (hw : IsBlank w) (fuel : Nat) (cs : List Char) :
    scanItems fuel (w ++ cs) = scanItems fuel cs := by
  cases fuel with
  | zero => rfl
  | succ fuel => rw [Json.scanItems, Json.scanItems, hw.scanValue]

theorem follows_nil : Follows [] := by simp [Follows]

theorem follows_comma (cs : List Char) : Follows (',' :: cs) := by simp [Follows]

theorem follows_bracket (cs : List Char) : Follows (']' :: cs) := by simp [Follows]

theorem follows_brace (cs : List Char) : Follows ('}' :: cs) := by simp [Follows]

/-! ## Texts -/

/-- A text is laid out as `o` and consumed, whatever may follow a value. -/
def Spells (cs : List Char) (o : Outline) : Prop :=
  ∀ fuel rest, 2 * cs.length ≤ fuel → Follows rest → scanValue fuel (cs ++ rest) = (o, some rest)

/-- Blanks and the name of a member with its colon. -/
def Labels (cs : List Char) (key : Key) : Prop :=
  ∃ w x u, cs = w ++ '"' :: (x ++ (u ++ [':'])) ∧ IsBlank w ∧ IsBlank u ∧
    ∀ next, scanKey (x ++ next) = .ok (key, next)

/-- The items of a list from one that has to follow, up to the closing bracket. -/
inductive SpellsItems : List Char → List Outline → Prop where
  | last {x w : List Char} {o : Outline} (hx : Spells x o) (hw : IsBlank w) :
    SpellsItems (x ++ (w ++ [']'])) [o]
  | comma {x w y : List Char} {o : Outline} {os : List Outline} (hx : Spells x o) (hw : IsBlank w)
    (hy : SpellsItems y os) : SpellsItems (x ++ (w ++ ',' :: y)) (o :: os)

/-- The members of an object from one that has to follow, up to the closing bracket. -/
inductive SpellsMembers : List Char → List (Key × Outline) → Prop where
  | last {l x w : List Char} {key : Key} {o : Outline} (hl : Labels l key) (hx : Spells x o)
    (hw : IsBlank w) : SpellsMembers (l ++ (x ++ (w ++ ['}']))) [(key, o)]
  | comma {l x w y : List Char} {key : Key} {o : Outline} {ms : List (Key × Outline)}
    (hl : Labels l key) (hx : Spells x o) (hw : IsBlank w) (hy : SpellsMembers y ms) :
    SpellsMembers (l ++ (x ++ (w ++ ',' :: y))) ((key, o) :: ms)

theorem Spells.blank (hw : IsBlank w) (h : Spells cs o) : Spells (w ++ cs) o := by
  intro fuel rest hfuel hrest
  rw [List.append_assoc, hw.scanValue]
  refine h fuel rest ?_ hrest
  rw [List.length_append] at hfuel
  omega

/-- A text of a value has in it where the value begins. -/
theorem Spells.opens (h : Spells cs o) : ∃ w x, IsBlank w ∧ cs = w ++ x ∧ Opens x := by
  obtain ⟨w, hw, hcs⟩ := exists_blank cs
  have hscan := h (2 * cs.length + 1) [] (by omega) follows_nil
  rw [List.append_nil, scanValue] at hscan
  rcases hskip : skipSpace cs with _ | ⟨c, tail⟩
  · simp [hskip] at hscan
  · refine ⟨w, c :: tail, hw, hskip ▸ hcs, c, tail, rfl, isSpace_of_skipSpace hskip, ?_⟩
    rintro rfl
    have hdigit : isDigit ']' = false := by decide
    simp [hskip, hdigit] at hscan

theorem Labels.blank {key : Key} (hw : IsBlank w) (h : Labels cs key) : Labels (w ++ cs) key := by
  obtain ⟨v, x, u, rfl, hv, hu, hkey⟩ := h
  exact ⟨w ++ v, x, u, (List.append_assoc ..).symm, hw.append hv, hu, hkey⟩

theorem SpellsItems.blank {os : List Outline} (hw : IsBlank w) (h : SpellsItems cs os) :
    SpellsItems (w ++ cs) os := by
  cases h with
  | last hx hu =>
    rw [← List.append_assoc]
    exact .last (hx.blank hw) hu
  | comma hx hu hy =>
    rw [← List.append_assoc]
    exact .comma (hx.blank hw) hu hy

theorem SpellsMembers.blank {ms : List (Key × Outline)} (hw : IsBlank w)
    (h : SpellsMembers cs ms) : SpellsMembers (w ++ cs) ms := by
  cases h with
  | last hl hx hu =>
    rw [← List.append_assoc]
    exact .last (hl.blank hw) hx hu
  | comma hl hx hu hy =>
    rw [← List.append_assoc]
    exact .comma (hl.blank hw) hx hu hy

/-! ## What is spelled is found -/

theorem Opens.append {x : List Char} (h : Opens x) (more : List Char) : Opens (x ++ more) := by
  obtain ⟨c, tail, rfl, hc⟩ := h
  exact ⟨c, tail ++ more, rfl, hc⟩

/-- Items begin where a value begins. -/
theorem SpellsItems.opens {os : List Outline} (h : SpellsItems cs os) :
    ∃ w x, IsBlank w ∧ cs = w ++ x ∧ Opens x := by
  cases h with
  | last hx hw =>
    obtain ⟨v, x, hv, rfl, hopens⟩ := hx.opens
    exact ⟨v, _, hv, List.append_assoc .., hopens.append _⟩
  | comma hx hw hy =>
    obtain ⟨v, x, hv, rfl, hopens⟩ := hx.opens
    exact ⟨v, _, hv, List.append_assoc .., hopens.append _⟩

theorem SpellsMembers.opens {ms : List (Key × Outline)} (h : SpellsMembers cs ms) :
    ∃ w x, IsBlank w ∧ cs = w ++ '"' :: x := by
  cases h with
  | last hl hx hw =>
    obtain ⟨v, x, u, rfl, hv, -, -⟩ := hl
    exact ⟨v, _, hv, List.append_assoc ..⟩
  | comma hl hx hw hy =>
    obtain ⟨v, x, u, rfl, hv, -, -⟩ := hl
    exact ⟨v, _, hv, List.append_assoc ..⟩

theorem IsBlank.skipSpace_token (hw : IsBlank w) {c : Char} (hc : isSpace c = false)
    (cs : List Char) : skipSpace (w ++ c :: cs) = c :: cs := by
  rw [hw.skipSpace_append, skipSpace_cons hc]

theorem SpellsItems.scanItems {os : List Outline} (h : SpellsItems cs os) :
    ∀ fuel rest, 2 * cs.length ≤ fuel →
      Json.scanItems fuel (cs ++ rest) = (os, .closed, some rest) := by
  induction h with
  | @last x w o hx hw =>
    intro fuel rest hfuel
    simp only [List.length_append, List.length_singleton] at hfuel
    cases fuel with
    | zero => omega
    | succ fuel =>
      have hvalue := hx fuel _ (by omega) (hw.follows (follows_bracket rest))
      have hclose := hw.skipSpace_token (c := ']') (by decide) rest
      rw [List.append_assoc, List.append_assoc, List.singleton_append, Json.scanItems, hvalue]
      simp only [hclose]
  | @comma x w y o os hx hw hy ih =>
    intro fuel rest hfuel
    simp only [List.length_append, List.length_cons] at hfuel
    cases fuel with
    | zero => omega
    | succ fuel =>
      have hvalue := hx fuel _ (by omega) (hw.follows (follows_comma (y ++ rest)))
      have hcomma := hw.skipSpace_token (c := ',') (by decide) (y ++ rest)
      have hmore := ih fuel rest (by omega)
      obtain ⟨v, z, hv, rfl, c, tail, rfl, hspace, hclose⟩ := hy.opens
      have hnext := hv.skipSpace_token hspace (tail ++ rest)
      rw [List.append_assoc, hv.scanItems] at hmore
      rw [List.append_assoc, List.append_assoc, List.cons_append, Json.scanItems, hvalue]
      simp only [hcomma]
      rw [List.append_assoc, List.cons_append, hnext]
      simp only [List.cons_append] at hmore
      simp [hclose, hmore]

/-- A list is spelled by its items in brackets. -/
theorem Spells.array {os : List Outline} (h : SpellsItems cs os) :
    Spells ('[' :: cs) (.array os .closed) := by
  intro fuel rest hfuel _
  rw [List.length_cons] at hfuel
  cases fuel with
  | zero => omega
  | succ fuel =>
    have hitems := h.scanItems fuel rest (by omega)
    obtain ⟨v, z, hv, rfl, c, tail, rfl, hspace, hclose⟩ := h.opens
    have hnext := hv.skipSpace_token hspace (tail ++ rest)
    rw [List.append_assoc, hv.scanItems] at hitems
    rw [List.cons_append, scanValue, skipSpace_cons (by decide)]
    simp only [List.append_assoc, List.cons_append, hnext] at hitems ⊢
    simp [hclose, hitems]

theorem Spells.emptyArray (hw : IsBlank w) : Spells ('[' :: (w ++ [']'])) (.array [] .closed) := by
  intro fuel rest hfuel _
  cases fuel with
  | zero => simp at hfuel
  | succ fuel =>
    have hclose := hw.skipSpace_token (c := ']') (by decide) rest
    rw [List.cons_append, scanValue, skipSpace_cons (by decide)]
    simp only [List.append_assoc, List.singleton_append, hclose]

theorem SpellsMembers.scanMembers {ms : List (Key × Outline)} (h : SpellsMembers cs ms) :
    ∀ fuel rest, 2 * cs.length ≤ fuel →
      Json.scanMembers fuel (skipSpace (cs ++ rest)) = (ms, .closed, some rest) := by
  induction h with
  | @last l x w key o hl hx hw =>
    intro fuel rest hfuel
    obtain ⟨v, k, u, rfl, hv, hu, hkey⟩ := hl
    simp only [List.length_append, List.length_cons] at hfuel
    cases fuel with
    | zero => omega
    | succ fuel =>
      have hvalue := hx fuel _ (by omega) (hw.follows (follows_brace rest))
      have hcolon := hu.skipSpace_token (c := ':') (by decide) (x ++ (w ++ '}' :: rest))
      have hclose := hw.skipSpace_token (c := '}') (by decide) rest
      simp only [List.append_assoc, List.cons_append, List.nil_append]
      rw [hv.skipSpace_token (by decide), Json.scanMembers]
      simp only [hkey, hcolon, hvalue, hclose]
  | @comma l x w y key o ms hl hx hw hy ih =>
    intro fuel rest hfuel
    obtain ⟨v, k, u, rfl, hv, hu, hkey⟩ := hl
    simp only [List.length_append, List.length_cons] at hfuel
    cases fuel with
    | zero => omega
    | succ fuel =>
      have hvalue := hx fuel _ (by omega) (hw.follows (follows_comma (y ++ rest)))
      have hcolon := hu.skipSpace_token (c := ':') (by decide) (x ++ (w ++ ',' :: (y ++ rest)))
      have hcomma := hw.skipSpace_token (c := ',') (by decide) (y ++ rest)
      have hmore := ih fuel rest (by omega)
      obtain ⟨b, z, hb, rfl⟩ := hy.opens
      have hnext := hb.skipSpace_token (c := '"') (by decide) (z ++ rest)
      simp only [List.append_assoc, List.cons_append, List.nil_append] at *
      rw [hv.skipSpace_token (by decide), Json.scanMembers]
      rw [hnext] at hmore
      simp only [hkey, hcolon, hvalue, hcomma, hnext]
      simp [hmore]

/-- An object is spelled by its members in brackets. -/
theorem Spells.object {ms : List (Key × Outline)} (h : SpellsMembers cs ms) :
    Spells ('{' :: cs) (.object ms .closed) := by
  intro fuel rest hfuel _
  rw [List.length_cons] at hfuel
  cases fuel with
  | zero => omega
  | succ fuel =>
    have hmembers := h.scanMembers fuel rest (by omega)
    obtain ⟨v, z, hv, rfl⟩ := h.opens
    have hnext := hv.skipSpace_token (c := '"') (by decide) (z ++ rest)
    simp only [List.append_assoc, List.cons_append] at hmembers ⊢
    rw [hnext] at hmembers
    rw [scanValue, skipSpace_cons (by decide)]
    simp only [hnext]
    simp [hmembers]

theorem Spells.emptyObject (hw : IsBlank w) :
    Spells ('{' :: (w ++ ['}'])) (.object [] .closed) := by
  intro fuel rest hfuel _
  cases fuel with
  | zero => simp at hfuel
  | succ fuel =>
    have hclose := hw.skipSpace_token (c := '}') (by decide) rest
    rw [List.cons_append, scanValue, skipSpace_cons (by decide)]
    simp only [List.append_assoc, List.singleton_append, hclose]

/-! ## What is found was spelled -/

/-- What a scan with this fuel has found that leaves a rest. -/
inductive Finds (fuel : Nat) (rest : List Char) : List Char → Outline → Prop where
  | leaf {x : List Char} {o : Outline} (hx : Spells x o) (ho : o.IsLeaf) :
    Finds fuel rest (x ++ rest) o
  | emptyArray {w : List Char} (hw : IsBlank w) :
    Finds fuel rest ('[' :: (w ++ ']' :: rest)) (.array [] .closed)
  | array {w cs : List Char} {os : List Outline} {e : Ending} (hw : IsBlank w)
    (h : scanItems fuel cs = (os, e, some rest)) : Finds fuel rest ('[' :: (w ++ cs)) (.array os e)
  | emptyObject {w : List Char} (hw : IsBlank w) :
    Finds fuel rest ('{' :: (w ++ '}' :: rest)) (.object [] .closed)
  | object {w cs : List Char} {ms : List (Key × Outline)} {e : Ending} (hw : IsBlank w)
    (h : scanMembers fuel cs = (ms, e, some rest)) :
    Finds fuel rest ('{' :: (w ++ cs)) (.object ms e)

/-- A text that takes one step has its own first character. -/
theorem spells_of_step {c : Char} {x : List Char}
    (h : ∀ fuel next, Follows next → scanValue (fuel + 1) (c :: (x ++ next)) = (o, some next)) :
    Spells (c :: x) o := by
  intro fuel next hfuel hnext
  cases fuel with
  | zero => simp at hfuel
  | succ fuel => exact h fuel next hnext

theorem finds_string (h : scanString cs = .ok (o, rest)) : Finds fuel rest ('"' :: cs) o := by
  obtain ⟨hleaf, x, rfl, hx⟩ := scanString_ok h
  refine .leaf (x := '"' :: x) (spells_of_step fun fuel next _ => ?_) hleaf
  rw [scanValue, skipSpace_cons (by decide)]
  simp only [hx next]

theorem finds_numeral {c : Char} {n : Numeral} (h : scanNumeral (c :: cs) = .done n rest) :
    Finds fuel rest (c :: cs) (.number n.value) := by
  obtain ⟨x, hcs, ⟨d, y, rfl, hd⟩, hx⟩ := scanNumeral_done h
  rw [hcs]
  refine .leaf (spells_of_step fun fuel next hnext => ?_) trivial
  have hopens : Opens (d :: y) := by
    rcases hd with rfl | hdigit
    · exact ⟨'-', y, rfl, by decide, by decide⟩
    · exact opens_of_isDigit hdigit y
  have hskip := hopens.skipSpace next
  have hother : d ≠ '[' ∧ d ≠ '{' ∧ d ≠ '"' ∧ d ≠ 'n' ∧ d ≠ 't' ∧ d ≠ 'f' := by
    refine ⟨?_, ?_, ?_, ?_, ?_, ?_⟩ <;> rintro rfl <;> exact absurd hd (by decide)
  obtain ⟨hlist, hobject, hquote, hnull, htrue, hfalse⟩ := hother
  have hdone := hx next hnext
  rw [List.cons_append] at hdone hskip
  rw [scanValue, hskip]
  simp [hd, hdone]

theorem finds_literal {c : Char} {word : List Char} {value : Outline}
    (h : scanLiteral value word cs = (o, some rest)) (hvalue : value.IsLeaf)
    (hstep : ∀ fuel cs, scanValue (fuel + 1) (c :: cs) = scanLiteral value word cs) :
    Finds fuel rest (c :: cs) o := by
  unfold scanLiteral at h
  split at h
  · rename_i hword
    cases h
    obtain ⟨rfl, hnext⟩ := scanWord_ok hword
    refine .leaf (x := c :: word) (spells_of_step fun fuel next _ => ?_) hvalue
    rw [hstep, scanLiteral, hnext]
  · cases h

theorem finds_of_scanValue (h : scanValue (fuel + 1) cs = (o, some rest)) :
    ∃ w x, IsBlank w ∧ cs = w ++ x ∧ Finds fuel rest x o := by
  obtain ⟨w, hw, hcs⟩ := exists_blank cs
  refine ⟨w, skipSpace cs, hw, hcs, ?_⟩
  rw [scanValue] at h
  split at h
  · cases h
  · rename_i cs' hskip
    obtain ⟨u, hu, hcs'⟩ := exists_blank cs'
    rw [hskip]
    split at h
    · cases h
    · rename_i hclose
      cases h
      rw [hcs', hclose]
      exact .emptyArray hu
    · rcases hitems : scanItems fuel (skipSpace cs') with ⟨os, e, r⟩
      simp only [hitems, Prod.mk.injEq] at h
      obtain ⟨rfl, rfl⟩ := h
      rw [hcs']
      exact .array hu hitems
  · rename_i cs' hskip
    obtain ⟨u, hu, hcs'⟩ := exists_blank cs'
    rw [hskip]
    split at h
    · cases h
    · rename_i hclose
      cases h
      rw [hcs', hclose]
      exact .emptyObject hu
    · rcases hmembers : scanMembers fuel (skipSpace cs') with ⟨ms, e, r⟩
      simp only [hmembers, Prod.mk.injEq] at h
      obtain ⟨rfl, rfl⟩ := h
      rw [hcs']
      exact .object hu hmembers
  · rename_i cs' hskip
    rw [hskip]
    split at h
    · cases h
      exact finds_string ‹_›
    · cases h
  · rename_i cs' hskip
    rw [hskip]
    exact finds_literal h trivial fun _ _ => rfl
  · rename_i cs' hskip
    rw [hskip]
    exact finds_literal h trivial fun _ _ => rfl
  · rename_i cs' hskip
    rw [hskip]
    exact finds_literal h trivial fun _ _ => rfl
  · rename_i c cs' _ _ _ _ _ _ hskip
    rw [hskip]
    split at h
    · split at h
      · cases h
        exact finds_numeral ‹_›
      · cases h
    · cases h

theorem spells_of_finds (hitems : ∀ {cs os e}, scanItems fuel cs = (os, e, some rest) →
      e = .closed ∧ ∃ x, cs = x ++ rest ∧ SpellsItems x os)
    (hmembers : ∀ {cs ms e}, scanMembers fuel cs = (ms, e, some rest) →
      e = .closed ∧ ∃ x, cs = x ++ rest ∧ SpellsMembers x ms)
    (h : Finds fuel rest cs o) : ∃ x, cs = x ++ rest ∧ Spells x o := by
  cases h with
  | leaf hx => exact ⟨_, rfl, hx⟩
  | @emptyArray w hw => exact ⟨'[' :: (w ++ [']']), by simp, .emptyArray hw⟩
  | @array w _ _ _ hw h =>
    obtain ⟨rfl, x, rfl, hx⟩ := hitems h
    exact ⟨'[' :: (w ++ x), by simp, .array (hx.blank hw)⟩
  | @emptyObject w hw => exact ⟨'{' :: (w ++ ['}']), by simp, .emptyObject hw⟩
  | @object w _ _ _ hw h =>
    obtain ⟨rfl, x, rfl, hx⟩ := hmembers h
    exact ⟨'{' :: (w ++ x), by simp, .object (hx.blank hw)⟩

mutual

/-- What a scan consumes spells what it finds. -/
theorem spells_of_scanValue : ∀ (fuel : Nat) {cs rest : List Char} {o : Outline},
    scanValue fuel cs = (o, some rest) → ∃ x, cs = x ++ rest ∧ Spells x o
  | 0, _, _, _, h => by cases h
  | fuel + 1, cs, rest, o, h => by
    obtain ⟨w, y, hw, rfl, hfinds⟩ := finds_of_scanValue h
    obtain ⟨x, rfl, hx⟩ := spells_of_finds (fun h => spells_of_scanItems fuel h)
      (fun h => spells_of_scanMembers fuel h) hfinds
    exact ⟨w ++ x, (List.append_assoc ..).symm, hx.blank hw⟩

theorem spells_of_scanItems : ∀ (fuel : Nat) {cs rest : List Char} {os : List Outline} {e : Ending},
    scanItems fuel cs = (os, e, some rest) → e = .closed ∧ ∃ x, cs = x ++ rest ∧ SpellsItems x os
  | 0, _, _, _, _, h => by cases h
  | fuel + 1, cs, rest, os, e, h => by
    rw [scanItems] at h
    rcases hvalue : scanValue fuel cs with ⟨o, _ | behind⟩
    · simp [hvalue] at h
    obtain ⟨x, rfl, hx⟩ := spells_of_scanValue fuel hvalue
    obtain ⟨w, hw, hbehind⟩ := exists_blank behind
    simp only [hvalue] at h
    split at h
    · cases h
    · rename_i hclose
      cases h
      rw [hbehind, hclose]
      exact ⟨rfl, x ++ (w ++ [']']), by simp, .last hx hw⟩
    · rename_i more hcomma
      obtain ⟨u, hu, hmore⟩ := exists_blank more
      split at h
      · cases h
      · cases h
      · rcases hitems : scanItems fuel (skipSpace more) with ⟨os', e', r⟩
        simp only [hitems, Prod.mk.injEq] at h
        obtain ⟨rfl, rfl, rfl⟩ := h
        obtain ⟨rfl, y, hy, hys⟩ := spells_of_scanItems fuel hitems
        rw [hbehind, hcomma, hmore, hy]
        exact ⟨rfl, x ++ (w ++ ',' :: (u ++ y)), by simp, .comma hx hw (hys.blank hu)⟩
    · cases h

theorem spells_of_scanMembers : ∀ (fuel : Nat) {cs rest : List Char} {ms : List (Key × Outline)}
    {e : Ending}, scanMembers fuel cs = (ms, e, some rest) →
      e = .closed ∧ ∃ x, cs = x ++ rest ∧ SpellsMembers x ms
  | 0, _, _, _, _, h => by cases h
  | fuel + 1, cs, rest, ms, e, h => by
    rw [scanMembers.eq_def] at h
    dsimp only at h
    split at h
    case h_2 => cases h
    rename_i name
    rcases hkey : scanKey name with flaw | ⟨key, behind⟩
    · simp [hkey] at h
    obtain ⟨k, rfl, hk⟩ := scanKey_ok hkey
    obtain ⟨u, hu, hbehind⟩ := exists_blank behind
    simp only [hkey] at h
    split at h
    · cases h
    · rename_i value hcolon
      have hlabel : Labels ('"' :: (k ++ (u ++ [':']))) key := ⟨[], k, u, rfl, isBlank_nil, hu, hk⟩
      rcases hvalue : scanValue fuel value with ⟨o, _ | behind'⟩
      · simp [hvalue] at h
      obtain ⟨x, rfl, hx⟩ := spells_of_scanValue fuel hvalue
      obtain ⟨w, hw, hbehind'⟩ := exists_blank behind'
      simp only [hvalue] at h
      split at h
      · cases h
      · rename_i hclose
        cases h
        rw [hbehind, hcolon, hbehind', hclose]
        exact ⟨rfl, _, by simp, .last hlabel hx hw⟩
      · rename_i more hcomma
        obtain ⟨v, hv, hmore⟩ := exists_blank more
        split at h
        · cases h
        · cases h
        · rcases hmembers : scanMembers fuel (skipSpace more) with ⟨ms', e', r⟩
          simp only [hmembers, Prod.mk.injEq] at h
          obtain ⟨rfl, rfl, rfl⟩ := h
          obtain ⟨rfl, y, hy, hys⟩ := spells_of_scanMembers fuel hmembers
          rw [hbehind, hcolon, hbehind', hcomma, hmore, hy]
          exact ⟨rfl, _, by simp, .comma hlabel hx hw (hys.blank hv)⟩
      · cases h
    · cases h

end

/-- A written value is spelled by its text. -/
theorem Scans.spells (h : Scans cs o) : Spells cs o := by
  have hscan := h (2 * cs.length) [] le_rfl stops_nil
  obtain ⟨x, hx, hspells⟩ := spells_of_scanValue _ hscan
  rwa [List.append_cancel_right hx]

/-! ### Whole texts -/

/-- Where a list is closed, a scan leaves a rest. -/
theorem exists_rest_of_scanItems : ∀ (fuel : Nat) {cs : List Char} {os : List Outline}
    {r : Option (List Char)}, scanItems fuel cs = (os, .closed, r) → ∃ rest, r = some rest
  | 0, _, _, _, h => by cases h
  | fuel + 1, cs, os, r, h => by
    rw [scanItems] at h
    split at h
    · cases h
    · split at h
      · cases h
      · cases h
        exact ⟨_, rfl⟩
      · split at h
        · cases h
        · cases h
        · simp only [Prod.mk.injEq] at h
          exact exists_rest_of_scanItems fuel (Prod.ext rfl (Prod.ext h.2.1 h.2.2))
      · cases h

theorem exists_rest_of_scanMembers : ∀ (fuel : Nat) {cs : List Char} {ms : List (Key × Outline)}
    {r : Option (List Char)}, scanMembers fuel cs = (ms, .closed, r) → ∃ rest, r = some rest
  | 0, _, _, _, h => by cases h
  | fuel + 1, cs, ms, r, h => by
    rw [scanMembers.eq_def] at h
    dsimp only at h
    split at h
    case h_2 => cases h
    split at h
    · cases h
    · split at h
      · cases h
      · split at h
        · cases h
        · split at h
          · cases h
          · cases h
            exact ⟨_, rfl⟩
          · split at h
            · cases h
            · cases h
            · simp only [Prod.mk.injEq] at h
              exact exists_rest_of_scanMembers fuel (Prod.ext rfl (Prod.ext h.2.1 h.2.2))
          · cases h
      · cases h

/-- A list or an object that is closed. -/
def Outline.IsClosed : Outline → Prop
  | .array _ e => e = .closed
  | .object _ e => e = .closed
  | _ => False

theorem exists_rest_of_scanValue {r : Option (List Char)} (h : scanValue fuel cs = (o, r))
    (ho : o.IsClosed) : ∃ rest, r = some rest := by
  cases fuel with
  | zero =>
    cases h
    exact ho.elim
  | succ fuel =>
    rw [scanValue] at h
    split at h
    · cases h
      exact ho.elim
    · split at h
      · cases h
        cases ho
      · cases h
        exact ⟨_, rfl⟩
      · obtain ⟨rfl, hr⟩ := Prod.mk.inj h
        exact exists_rest_of_scanItems fuel (Prod.ext rfl (Prod.ext ho hr))
    · split at h
      · cases h
        cases ho
      · cases h
        exact ⟨_, rfl⟩
      · obtain ⟨rfl, hr⟩ := Prod.mk.inj h
        exact exists_rest_of_scanMembers fuel (Prod.ext rfl (Prod.ext ho hr))
    · split at h
      · cases h
        exact ⟨_, rfl⟩
      · cases h
        exact ho.elim
    iterate 3
      · unfold scanLiteral at h
        split at h
        · cases h
          exact ⟨_, rfl⟩
        · cases h
          exact ho.elim
    · split at h
      · split at h
        · cases h
          exact ⟨_, rfl⟩
        · cases h
          exact ho.elim
      · cases h
        exact ho.elim

theorem ofText_of_spells {x : List Char} (hx : Spells x o) (hw : IsBlank w) :
    Layout.ofText (String.ofList (x ++ w)) = ⟨o, false⟩ := by
  have hfollows : Follows w := by
    rw [← List.append_nil w]
    exact hw.follows follows_nil
  have hscan := hx (2 * (x ++ w).length + 2) w (by rw [List.length_append]; omega) hfollows
  have hend : skipSpace w = [] := by
    rw [← List.append_nil w, hw.skipSpace_append]
    rfl
  unfold Layout.ofText
  rw [String.toList_ofList, hscan]
  simp [hend]

theorem spells_of_ofText {t : String} (h : (Layout.ofText t).trailing = false)
    (ho : (Layout.ofText t).value.IsClosed) :
    ∃ x w, t.toList = x ++ w ∧ IsBlank w ∧ Spells x (Layout.ofText t).value := by
  unfold Layout.ofText at h ho ⊢
  rcases hscan : scanValue (2 * t.toList.length + 2) t.toList with ⟨o, r⟩
  simp only [hscan] at h ho ⊢
  obtain ⟨rest, rfl⟩ := exists_rest_of_scanValue hscan ho
  obtain ⟨x, htext, hx⟩ := spells_of_scanValue _ hscan
  obtain ⟨w, hw, hrest⟩ := exists_blank rest
  have hend : skipSpace rest = [] := by simpa using h
  rw [hend, List.append_nil] at hrest
  exact ⟨x, rest, htext, hrest ▸ hw, hx⟩

/-! ### Lists and objects -/

theorem Spells.array_cases {os : List Outline} {e : Ending} (h : Spells cs (.array os e)) :
    e = .closed ∧ ∃ w y, IsBlank w ∧ cs = w ++ '[' :: y ∧
      ((os = [] ∧ ∃ u, IsBlank u ∧ y = u ++ [']']) ∨ SpellsItems y os) := by
  have hscan := h (2 * cs.length + 1) [] (by omega) follows_nil
  rw [List.append_nil] at hscan
  obtain ⟨w, y, hw, rfl, hfinds⟩ := finds_of_scanValue hscan
  cases hfinds with
  | leaf hx ho => exact ho.elim
  | @emptyArray u hu => exact ⟨rfl, w, u ++ [']'], hw, rfl, .inl ⟨rfl, u, hu, rfl⟩⟩
  | @array u _ _ _ hu hitems =>
    obtain ⟨rfl, x, rfl, hx⟩ := spells_of_scanItems _ hitems
    rw [List.append_nil] at *
    exact ⟨rfl, w, u ++ x, hw, rfl, .inr (hx.blank hu)⟩

theorem Spells.object_cases {ms : List (Key × Outline)} {e : Ending}
    (h : Spells cs (.object ms e)) :
    e = .closed ∧ ∃ w y, IsBlank w ∧ cs = w ++ '{' :: y ∧
      ((ms = [] ∧ ∃ u, IsBlank u ∧ y = u ++ ['}']) ∨ SpellsMembers y ms) := by
  have hscan := h (2 * cs.length + 1) [] (by omega) follows_nil
  rw [List.append_nil] at hscan
  obtain ⟨w, y, hw, rfl, hfinds⟩ := finds_of_scanValue hscan
  cases hfinds with
  | leaf hx ho => exact ho.elim
  | @emptyObject u hu => exact ⟨rfl, w, u ++ ['}'], hw, rfl, .inl ⟨rfl, u, hu, rfl⟩⟩
  | @object u _ _ _ hu hmembers =>
    obtain ⟨rfl, x, rfl, hx⟩ := spells_of_scanMembers _ hmembers
    rw [List.append_nil] at *
    exact ⟨rfl, w, u ++ x, hw, rfl, .inr (hx.blank hu)⟩

end Gateway.Json
