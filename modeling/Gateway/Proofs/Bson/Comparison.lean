import Gateway.Bson.Basic
import Mathlib.Data.List.Forall2

/-!
# How values compare

Values that are the same for a comparison are of one kind. Lists compare place by place;
of documents only those of one entry are needed here.
-/

namespace Gateway.Bson

/-- Whether a value is a list, a document or neither. -/
inductive Kind where
  | list
  | document
  | scalar

def kind : Bson → Kind
  | .array _ => .list
  | .document _ => .document
  | _ => .scalar

@[simp]
theorem kind_array (items : List Bson) : kind (.array items) = .list := rfl

@[simp]
theorem kind_document (entries : Document) : kind (.document entries) = .document := rfl

theorem sameValue_of_kind_ne {a b : Bson} (h : ¬ a.kind = b.kind) : a.sameValue b = false := by
  cases a <;> cases b <;> first | rfl | exact absurd rfl h

theorem sameItems_iff {as bs : List Bson} :
    sameItems as bs = true ↔ List.Forall₂ (fun a b => a.sameValue b = true) as bs := by
  induction as generalizing bs with
  | nil => cases bs <;> simp [sameItems]
  | cons a as ih => cases bs <;> simp [sameItems, ih]

theorem sameValue_entry {k l : String} {a b : Bson} :
    sameValue (.document [(k, a)]) (.document [(l, b)]) = true ↔ k = l ∧ a.sameValue b = true := by
  by_cases h : l = k
  · subst h
    simp [sameValue, sameEntries]
  · simp [sameValue, sameEntries, h, Ne.symm h]

end Gateway.Bson
