import Gateway.Proofs.Address.Layout

/-!
# What redaction removes

Redaction works on text: it looks for the first slash, and in what stands before it strips
each entry between commas up to its last at sign. User info in front of the rest is removed
so (`redactRest_userinfo`), and an entry without a slash is stripped and the rest is looked at
(`redactRest_entry`). But an entry with a slash in it ends the part that is looked at, and all
behind it stays as it is (`redactRest_append`).
-/

namespace Gateway.BaseAddress

open Percent

/-! ## Entries between commas -/

theorem splitCommas_eq_splitOn (cs : List Char) : splitCommas cs = cs.splitOn ',' := by
  induction cs with
  | nil => rfl
  | cons c cs ih =>
    rw [splitCommas, List.splitOn_cons_eq_if_modifyHead, ih]
    by_cases hc : c = ','
    · simp [hc]
    · rcases hs : cs.splitOn ',' with _ | ⟨e, es⟩
      · exact absurd hs (List.splitOn_ne_nil _ _)
      · simp [hc]

/-- A list of hosts, each entry behind its last at sign. -/
def stripped (hosts : List Char) : List Char := joinCommas ((splitCommas hosts).map behindLastAt)

theorem behindLastAt_append (xs ys : List Char) :
    behindLastAt (xs ++ '@' :: ys) = behindLastAt ys := by
  have hreverse : (xs ++ '@' :: ys).reverse = ys.reverse ++ '@' :: xs.reverse := by simp
  rw [behindLastAt, behindLastAt, hreverse, List.takeWhile_append]
  split
  · rename_i hlength
    have hall := (List.takeWhile_sublist (· ≠ '@')).eq_of_length hlength
    rw [hall]
    simp
  · rfl

theorem stripped_userinfo {xs : List Char} (hx : ',' ∉ xs) (ys : List Char) :
    stripped (xs ++ '@' :: ys) = stripped ys := by
  have hsplit : ∀ zs : List Char, ',' ∉ zs →
      (zs ++ ys).splitOn ',' = (ys.splitOn ',').modifyHead (zs ++ ·) := by
    intro zs
    induction zs with
    | nil => exact fun _ => (congrFun List.modifyHead_id (ys.splitOn ',')).symm
    | cons z zs ih =>
      intro hz
      rw [List.mem_cons, not_or] at hz
      rw [List.cons_append, List.splitOn_cons_eq_if_modifyHead, ih hz.2]
      simp [Ne.symm hz.1, List.modifyHead_modifyHead, Function.comp_def]
  have hx' : ',' ∉ xs ++ ['@'] := by simpa using hx
  rw [stripped, stripped, splitCommas_eq_splitOn, splitCommas_eq_splitOn,
    List.append_cons, hsplit _ hx']
  rcases ys.splitOn ',' with _ | ⟨e, es⟩
  · rfl
  · have he : behindLastAt (xs ++ ['@'] ++ e) = behindLastAt e := by
      rw [← List.append_cons, behindLastAt_append]
    rw [List.modifyHead_cons, List.map_cons, List.map_cons, he]

theorem joinCommas_append {es fs : List (List Char)} (he : es ≠ []) (hf : fs ≠ []) :
    joinCommas (es ++ fs) = joinCommas es ++ ',' :: joinCommas fs := by
  induction es with
  | nil => exact absurd rfl he
  | cons e es ih =>
    rcases es with _ | ⟨e', es⟩
    · rcases fs with _ | ⟨f, fs⟩
      · exact absurd rfl hf
      · simp [joinCommas, List.intercalate_cons_cons]
    · have hrest := ih (by simp)
      simp only [joinCommas, List.cons_append, List.intercalate_cons_cons] at hrest ⊢
      rw [hrest]
      simp

theorem stripped_append_cons (xs ys : List Char) :
    stripped (xs ++ ',' :: ys) = stripped xs ++ ',' :: stripped ys := by
  simp only [stripped, splitCommas_eq_splitOn, List.splitOn_append_cons_self, List.map_append]
  apply joinCommas_append
  · simp
  · simp

/-! ## The part before the first slash -/

theorem takeWhile_slash {xs : List Char} (hx : '/' ∉ xs) (ys : List Char) :
    (xs ++ ys).takeWhile (· ≠ '/') = xs ++ ys.takeWhile (· ≠ '/') ∧
      (xs ++ ys).dropWhile (· ≠ '/') = ys.dropWhile (· ≠ '/') := by
  have hall : ∀ c ∈ xs, decide (c ≠ '/') = true := by
    intro c hc
    rw [decide_eq_true_eq]
    rintro rfl
    exact hx hc
  exact ⟨List.takeWhile_append_of_pos hall, List.dropWhile_append_of_pos hall⟩

/-- User info in front is removed. -/
theorem redactRest_userinfo {xs : List Char} (hslash : '/' ∉ xs) (hcomma : ',' ∉ xs)
    (ys : List Char) : redactRest (xs ++ '@' :: ys) = redactRest ys := by
  have hslash' : '/' ∉ xs ++ ['@'] := by simpa using hslash
  obtain ⟨htake, hdrop⟩ := takeWhile_slash hslash' ys
  have hstrip := stripped_userinfo hcomma (ys.takeWhile (· ≠ '/'))
  simp only [redactRest, List.append_cons _ '@' ys, htake, hdrop]
  rw [← List.append_cons]
  exact congrArg (· ++ _) hstrip

/-- An entry without a slash is stripped, and the entries behind it are looked at. -/
theorem redactRest_entry {xs : List Char} (hslash : '/' ∉ xs) (ys : List Char) :
    redactRest (xs ++ ',' :: ys) = stripped xs ++ ',' :: redactRest ys := by
  have hslash' : '/' ∉ xs ++ [','] := by simpa using hslash
  obtain ⟨htake, hdrop⟩ := takeWhile_slash hslash' ys
  have hstrip := stripped_append_cons xs (ys.takeWhile (· ≠ '/'))
  simp only [redactRest, List.append_cons _ ',' ys, htake, hdrop]
  rw [← List.append_cons]
  simp only [stripped] at hstrip ⊢
  rw [hstrip]
  simp

/-- A slash ends the part that is looked at. -/
theorem redactRest_append {xs : List Char} (hslash : '/' ∈ xs) (ys : List Char) :
    redactRest (xs ++ ys) = redactRest xs ++ ys := by
  obtain ⟨hosts, tail, rfl, hhosts⟩ := List.eq_append_cons_of_mem hslash
  obtain ⟨htake, hdrop⟩ := takeWhile_slash hhosts ('/' :: tail ++ ys)
  obtain ⟨htake', hdrop'⟩ := takeWhile_slash hhosts ('/' :: tail)
  simp only [redactRest, List.append_assoc, htake, hdrop, htake', hdrop']
  simp

end Gateway.BaseAddress
