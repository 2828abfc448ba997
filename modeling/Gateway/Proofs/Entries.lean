import Gateway.Entries
import Mathlib.Data.List.Induction
import Mathlib.Data.List.Nodup

/-!
# Entries with distinct keys

A lookup finds the first entry of its key. When the keys are distinct there is no
other one, so lookups and membership say the same, and entries may be dropped by any
test without uncovering an older one.
-/

namespace Gateway.Entries

variable {α : Type}

theorem get?_insert (key other : String) (value : α) (es : List (String × α)) :
    get? other (insert key value es) = if other = key then some value else get? other es := by
  by_cases h : other = key
  · subst h
    simp
  · rw [get?_insert_of_ne (Ne.symm h), if_neg h]

theorem get?_erase (key other : String) (es : List (String × α)) :
    get? other (erase key es) = if other = key then none else get? other es := by
  by_cases h : other = key
  · subst h
    simp
  · rw [get?_erase_of_ne (Ne.symm h), if_neg h]

theorem get?_append (key : String) (es fs : List (String × α)) :
    get? key (es ++ fs) = (get? key es).or (get? key fs) := by
  induction es with
  | nil => rfl
  | cons e es ih =>
      obtain ⟨k, v⟩ := e
      by_cases h : k = key <;> simp [get?, h, ih]

/-! ## Lookup and membership -/

theorem mem_of_get?_eq_some {key : String} {value : α} {es : List (String × α)}
    (h : get? key es = some value) : (key, value) ∈ es := by
  induction es with
  | nil => simp [get?] at h
  | cons e es ih =>
      obtain ⟨k, v⟩ := e
      by_cases hk : k = key
      · subst hk
        simp only [get?, if_true, Option.some.injEq] at h
        simp [h]
      · rw [get?, if_neg hk] at h
        exact List.mem_cons_of_mem _ (ih h)

theorem get?_eq_none_iff {key : String} {es : List (String × α)} :
    get? key es = none ↔ key ∉ keys es := by
  induction es with
  | nil => simp [get?, keys]
  | cons e es ih =>
      obtain ⟨k, v⟩ := e
      by_cases h : k = key
      · simp [get?, keys, h]
      · simp only [keys] at ih
        simp [get?, keys, h, ih, Ne.symm h]

theorem get?_eq_some_of_mem {key : String} {value : α} {es : List (String × α)}
    (hn : (keys es).Nodup) (h : (key, value) ∈ es) : get? key es = some value := by
  induction es with
  | nil => simp at h
  | cons e es ih =>
      obtain ⟨k, v⟩ := e
      obtain ⟨hk, hn⟩ := List.nodup_cons.mp hn
      rcases List.mem_cons.mp h with h | h
      · obtain ⟨rfl, rfl⟩ := h
        simp [get?]
      · have hne : k ≠ key := by
          rintro rfl
          exact hk (List.mem_map.mpr ⟨_, h, rfl⟩)
        rw [get?, if_neg hne]
        exact ih hn h

theorem mem_iff_get? {key : String} {value : α} {es : List (String × α)}
    (hn : (keys es).Nodup) : (key, value) ∈ es ↔ get? key es = some value :=
  ⟨get?_eq_some_of_mem hn, mem_of_get?_eq_some⟩

/-- A found entry is the first of its key. -/
theorem split_of_get?_eq_some {key : String} {value : α} {es : List (String × α)}
    (h : get? key es = some value) :
    ∃ before after, es = before ++ (key, value) :: after ∧ get? key before = none ∧
      (es.takeWhile fun e => e.1 ≠ key) = before ∧
      (es.dropWhile fun e => e.1 ≠ key) = (key, value) :: after := by
  induction es with
  | nil => simp [get?] at h
  | cons e es ih =>
      obtain ⟨k, v⟩ := e
      by_cases hk : k = key
      · subst hk
        rw [get?, if_pos rfl] at h
        obtain rfl := Option.some.inj h
        exact ⟨[], es, by simp [get?]⟩
      · rw [get?, if_neg hk] at h
        obtain ⟨before, after, rfl, hnone, htake, hdrop⟩ := ih h
        refine ⟨(k, v) :: before, after, rfl, by rw [get?, if_neg hk, hnone], ?_, ?_⟩
        · rw [List.takeWhile_cons_of_pos (by simpa using hk), htake]
        · rw [List.dropWhile_cons_of_pos (by simpa using hk), hdrop]

/-! ## Keys after an update -/

/-- A new key goes to the end. -/
theorem insert_of_notMem {key : String} {value : α} {es : List (String × α)}
    (h : key ∉ keys es) : insert key value es = es ++ [(key, value)] := by
  induction es with
  | nil => rfl
  | cons e es ih =>
      obtain ⟨k, v⟩ := e
      simp only [keys, List.map_cons, List.mem_cons, not_or] at h
      rw [insert, if_neg (Ne.symm h.1), ih h.2, List.cons_append]

theorem mem_keys_insert {key other : String} {value : α} {es : List (String × α)} :
    other ∈ keys (insert key value es) ↔ other = key ∨ other ∈ keys es := by
  rw [← not_iff_not, ← get?_eq_none_iff, get?_insert, not_or, ← get?_eq_none_iff]
  by_cases h : other = key <;> simp [h]

theorem nodup_insert {key : String} {value : α} {es : List (String × α)}
    (hn : (keys es).Nodup) : (keys (insert key value es)).Nodup := by
  induction es with
  | nil => simp [insert, keys]
  | cons e es ih =>
      obtain ⟨k, v⟩ := e
      obtain ⟨hk, hn'⟩ := List.nodup_cons.mp hn
      by_cases h : k = key
      · simpa [insert, h, keys] using hn
      · have hout : k ∉ keys (insert key value es) := by
          rw [mem_keys_insert]
          rintro (rfl | hmem)
          · exact h rfl
          · exact hk hmem
        simp only [insert, if_neg h]
        exact List.nodup_cons.mpr ⟨hout, ih hn'⟩

theorem nodup_filter {p : String × α → Bool} {es : List (String × α)}
    (hn : (keys es).Nodup) : (keys (es.filter p)).Nodup :=
  (List.filter_sublist.map Prod.fst).nodup hn

theorem nodup_erase {key : String} {es : List (String × α)} (hn : (keys es).Nodup) :
    (keys (erase key es)).Nodup :=
  nodup_filter hn

theorem get?_filter {p : String × α → Bool} {es : List (String × α)} (hn : (keys es).Nodup)
    {key : String} {value : α} :
    get? key (es.filter p) = some value ↔ get? key es = some value ∧ p (key, value) = true := by
  rw [← mem_iff_get? (nodup_filter hn), List.mem_filter, mem_iff_get? hn]

/-! ## Entries written one after another -/

theorem keys_cons (e : String × α) (es : List (String × α)) : keys (e :: es) = e.1 :: keys es := rfl

theorem keys_insert (key : String) (value : α) (es : List (String × α)) :
    keys (insert key value es) = if key ∈ keys es then keys es else keys es ++ [key] := by
  induction es with
  | nil => rfl
  | cons e es ih =>
      obtain ⟨k, v⟩ := e
      by_cases h : k = key
      · simp [insert, keys_cons, h]
      · simp only [insert, if_neg h, keys_cons, ih, List.mem_cons, Ne.symm h, false_or]
        split <;> rfl

theorem ofList_concat (es : List (String × α)) (e : String × α) :
    ofList (es ++ [e]) = insert e.1 e.2 (ofList es) := by
  unfold ofList
  rw [List.foldl_append]
  rfl

/-- A key holds what was written last. -/
theorem get?_ofList (key : String) (es : List (String × α)) :
    get? key (ofList es) = get? key es.reverse := by
  induction es using List.reverseRecOn with
  | nil => rfl
  | append_singleton es e ih =>
      rw [ofList_concat, get?_insert, ih, List.reverse_append]
      by_cases h : key = e.1
      · simp [get?, h]
      · simp [get?, h, Ne.symm h]

/-- A key keeps the place where it was written first, so a search by keys finds the same. -/
theorem find?_keys_ofList (p : String → Bool) (es : List (String × α)) :
    (keys (ofList es)).find? p = (keys es).find? p := by
  induction es using List.reverseRecOn with
  | nil => rfl
  | append_singleton es e ih =>
      have hkeys : keys (es ++ [e]) = keys es ++ [e.1] := List.map_append
      rw [ofList_concat, keys_insert, hkeys, List.find?_append, ← ih]
      split
      · rename_i hmem
        -- the key is there already, so it is found there if it is what is searched for
        rcases hfind : (keys (ofList es)).find? p with _ | k
        · have hno := List.find?_eq_none.mp hfind e.1 hmem
          simp [hno]
        · rfl
      · rw [List.find?_append]

theorem insert_map {β : Type} (f : α → β) (key : String) (value : α) (es : List (String × α)) :
    insert key (f value) (es.map fun e => (e.1, f e.2)) =
      (insert key value es).map fun e => (e.1, f e.2) := by
  induction es with
  | nil => rfl
  | cons e es ih =>
      simp only [List.map_cons, insert]
      split
      · rfl
      · rw [ih, List.map_cons]

theorem ofList_map {β : Type} (f : α → β) (es : List (String × α)) :
    ofList (es.map fun e => (e.1, f e.2)) = (ofList es).map fun e => (e.1, f e.2) := by
  induction es using List.reverseRecOn with
  | nil => rfl
  | append_singleton es e ih =>
      rw [List.map_append, List.map_singleton, ofList_concat, ofList_concat, ih]
      exact insert_map f e.1 e.2 (ofList es)

end Gateway.Entries
