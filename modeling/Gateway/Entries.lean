/-!
# Ordered entries

A document keeps its entries in the order in which their keys first came. Writing a
key again replaces the value and leaves the place. A sorted table, in contrast, keeps
its keys ascending whatever order they come in.
-/

namespace Gateway.Entries

variable {α : Type}

def keys (es : List (String × α)) : List String := es.map Prod.fst

def get? (key : String) : List (String × α) → Option α
  | [] => none
  | (k, v) :: rest => if k = key then some v else get? key rest

/-- Writes a value: in place if the key is present, else at the end. -/
def insert (key : String) (value : α) : List (String × α) → List (String × α)
  | [] => [(key, value)]
  | (k, v) :: rest => if k = key then (k, value) :: rest else (k, v) :: insert key value rest

/-- Entries written one after another into nothing. -/
def ofList (es : List (String × α)) : List (String × α) :=
  es.foldl (fun acc e => insert e.1 e.2 acc) []

/-- The entries without those of one key. -/
def erase (key : String) (es : List (String × α)) : List (String × α) :=
  es.filter fun e => e.1 ≠ key

/-! ## What a key holds afterwards -/

@[simp]
theorem get?_insert_self (key : String) (value : α) (es : List (String × α)) :
    get? key (insert key value es) = some value := by
  induction es with
  | nil => simp [insert, get?]
  | cons e es ih =>
      obtain ⟨k, v⟩ := e
      by_cases h : k = key
      · simp [insert, get?, h]
      · simp [insert, get?, h, ih]

theorem get?_insert_of_ne {key other : String} (h : key ≠ other) (value : α)
    (es : List (String × α)) : get? other (insert key value es) = get? other es := by
  induction es with
  | nil => simp [insert, get?, h]
  | cons e es ih =>
      obtain ⟨k, v⟩ := e
      by_cases hk : k = key
      · subst hk
        simp [insert, get?, h]
      · simp [insert, get?, hk, ih]

@[simp]
theorem get?_erase_self (key : String) (es : List (String × α)) :
    get? key (erase key es) = none := by
  induction es with
  | nil => rfl
  | cons e es ih =>
      obtain ⟨k, v⟩ := e
      by_cases h : k = key
      · simpa [erase, h] using ih
      · simpa [erase, get?, h] using ih

theorem get?_erase_of_ne {key other : String} (h : key ≠ other) (es : List (String × α)) :
    get? other (erase key es) = get? other es := by
  induction es with
  | nil => rfl
  | cons e es ih =>
      obtain ⟨k, v⟩ := e
      by_cases hk : k = key
      · subst hk
        simpa [erase, get?, h] using ih
      · by_cases ho : k = other
        · subst ho
          simp [erase, get?, hk]
        · simpa [erase, get?, hk, ho] using ih

/-! ## Sorted entries -/

/-- Writes a value into entries that ascend by key. -/
def insertSorted (key : String) (value : α) : List (String × α) → List (String × α)
  | [] => [(key, value)]
  | (k, v) :: rest =>
    if k = key then (k, value) :: rest
    else if key < k then (key, value) :: (k, v) :: rest
    else (k, v) :: insertSorted key value rest

/-- Entries sorted by key; of those with one key the last. -/
def sorted (es : List (String × α)) : List (String × α) :=
  es.foldl (fun acc e => insertSorted e.1 e.2 acc) []

end Gateway.Entries
