import Gateway.Proofs.Entries
import Mathlib.Data.List.Pairwise
import Mathlib.Data.String.Basic

/-!
# Entries sorted by key

Entries with distinct keys, sorted, are the same entries in another order (`sorted_perm`), and of
all orders it is the one in which the keys ascend (`eq_sorted`).
-/

namespace Gateway.Entries

variable {α : Type} {es fs : List (String × α)}

/-- The keys ascend, so none is there twice. -/
def Ascending (es : List (String × α)) : Prop := (keys es).Pairwise (· < ·)

theorem Ascending.nodup (h : Ascending es) : (keys es).Nodup := h.imp fun hlt => hlt.ne

theorem ascending_nil : Ascending ([] : List (String × α)) := .nil

theorem ascending_cons {e : String × α} :
    Ascending (e :: es) ↔ (∀ f ∈ es, e.1 < f.1) ∧ Ascending es := by
  simp [Ascending, keys]

theorem insertSorted_perm {key : String} {value : α} (h : key ∉ keys es) :
    (insertSorted key value es).Perm ((key, value) :: es) := by
  induction es with
  | nil => exact .refl _
  | cons e es ih =>
    obtain ⟨k, v⟩ := e
    rw [keys_cons, List.mem_cons, not_or] at h
    obtain ⟨hk, hrest⟩ := h
    rw [insertSorted, if_neg (Ne.symm hk)]
    split
    · exact .refl _
    · exact ((ih hrest).cons _).trans (.swap _ _ _)

theorem mem_insertSorted {key : String} {value : α} {f : String × α}
    (h : f ∈ insertSorted key value es) : f = (key, value) ∨ f ∈ es := by
  induction es with
  | nil => exact .inl (List.mem_singleton.mp h)
  | cons e es ih =>
    obtain ⟨k, v⟩ := e
    rw [insertSorted] at h
    split at h
    · rename_i hk
      subst hk
      exact (List.mem_cons.mp h).imp_right (List.mem_cons_of_mem _)
    · split at h
      · exact List.mem_cons.mp h
      · rcases List.mem_cons.mp h with rfl | h
        · exact .inr List.mem_cons_self
        · exact (ih h).imp_right (List.mem_cons_of_mem _)

theorem Ascending.insertSorted (h : Ascending es) (key : String) (value : α) :
    Ascending (Entries.insertSorted key value es) := by
  induction es with
  | nil => exact ascending_cons.mpr ⟨by simp, ascending_nil⟩
  | cons e es ih =>
    obtain ⟨k, v⟩ := e
    obtain ⟨hfirst, hrest⟩ := ascending_cons.mp h
    rw [Entries.insertSorted]
    split
    · exact ascending_cons.mpr ⟨hfirst, hrest⟩
    · rename_i hne
      split
      · rename_i hlt
        refine ascending_cons.mpr ⟨fun f hf => ?_, h⟩
        rcases List.mem_cons.mp hf with rfl | hf
        · exact hlt
        · exact hlt.trans (hfirst f hf)
      · rename_i hnot
        refine ascending_cons.mpr ⟨fun f hf => ?_, ih hrest⟩
        rcases mem_insertSorted hf with rfl | hf
        · exact lt_of_le_of_ne (not_lt.mp hnot) hne
        · exact hfirst f hf

theorem sorted_concat (es : List (String × α)) (e : String × α) :
    sorted (es ++ [e]) = insertSorted e.1 e.2 (sorted es) := by
  simp [sorted]

theorem ascending_sorted (es : List (String × α)) : Ascending (sorted es) := by
  induction es using List.reverseRecOn with
  | nil => exact ascending_nil
  | append_singleton es e ih =>
    rw [sorted_concat]
    exact ih.insertSorted e.1 e.2

/-- Entries with distinct keys only change their order. -/
theorem sorted_perm (h : (keys es).Nodup) : (sorted es).Perm es := by
  induction es using List.reverseRecOn with
  | nil => exact .refl _
  | append_singleton es e ih =>
    obtain ⟨hes, hnew⟩ : (keys es).Nodup ∧ e.1 ∉ keys es := by
      rw [keys, List.map_append, List.nodup_append] at h
      exact ⟨h.1, fun hmem => h.2.2 _ hmem _ (by simp) rfl⟩
    have hperm := ih hes
    have hnew' : e.1 ∉ keys (sorted es) := fun hmem => hnew ((hperm.map _).mem_iff.mp hmem)
    rw [sorted_concat]
    calc (insertSorted e.1 e.2 (sorted es)).Perm (e :: sorted es) := insertSorted_perm hnew'
      _ |>.Perm (e :: es) := hperm.cons e
      _ |>.Perm (es ++ [e]) := (List.perm_append_singleton e es).symm

/-- Entries whose keys ascend are in the order of the sorted ones. -/
theorem eq_sorted (hperm : fs.Perm es) (hfs : Ascending fs) : fs = sorted es := by
  have hes : (keys es).Nodup := (hperm.map Prod.fst).nodup_iff.mp hfs.nodup
  refine List.Perm.eq_of_pairwise (fun e f _ _ hlt hgt => absurd hlt hgt.not_gt)
    (List.pairwise_map.mp hfs) (List.pairwise_map.mp (ascending_sorted es))
    (hperm.trans (sorted_perm hes).symm)

theorem sorted_of_ascending (h : Ascending es) : sorted es = es := (eq_sorted (.refl _) h).symm

end Gateway.Entries
