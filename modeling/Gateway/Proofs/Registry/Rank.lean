import Gateway.Proofs.Registry.Growth

/-!
# The attempts for one database

A registry numbers its attempts across all databases. Of the attempts for one database each
has a rank, which is the number that it would have if there were no others. Ranks follow from
the databases of all attempts, in order; those of a registry are the first ones of any that
comes later (`Moves.attempted_prefix`), so the list of a whole run gives the ranks of all its
attempts in advance.
-/

namespace Gateway

/-- How often a name is among the first of a list. -/
def rank (D : List String) (d : String) (n : Nat) : Nat := (D.take n).count d

@[simp]
theorem rank_zero (D : List String) (d : String) : rank D d 0 = 0 := by
  unfold rank
  rw [List.take_zero, List.count_nil]

theorem rank_cons_self (D : List String) (d : String) (n : Nat) :
    rank (d :: D) d (n + 1) = rank D d n + 1 := by
  unfold rank
  rw [List.take_succ_cons, List.count_cons_self]

theorem rank_cons_of_ne {e d : String} (h : e ≠ d) (D : List String) (n : Nat) :
    rank (e :: D) d (n + 1) = rank D d n := by
  unfold rank
  rw [List.take_succ_cons, List.count_cons_of_ne h]

theorem rank_length {L D : List String} (h : L <+: D) (d : String) :
    rank D d L.length = L.count d := by
  unfold rank
  rw [← List.prefix_iff_eq_take.mp h]

/-- Places of one name have different ranks. -/
theorem rank_injective {D : List String} {d : String} {n k : Nat} (hn : D[n]? = some d)
    (hk : D[k]? = some d) (h : rank D d n = rank D d k) : n = k := by
  induction D generalizing n k with
  | nil => simp at hn
  | cons e D ih =>
    cases n with
    | zero =>
      cases k with
      | zero => rfl
      | succ k =>
        obtain rfl := Option.some.inj hn
        rw [rank_zero, rank_cons_self] at h
        omega
    | succ n =>
      cases k with
      | zero =>
        obtain rfl := Option.some.inj hk
        rw [rank_zero, rank_cons_self] at h
        omega
      | succ k =>
        have htail : rank D d n = rank D d k := by
          by_cases he : e = d
          · subst he
            rw [rank_cons_self, rank_cons_self] at h
            omega
          · rwa [rank_cons_of_ne he, rank_cons_of_ne he] at h
        rw [ih hn hk htail]

/-- The partner of an attempt for a database, where there are no attempts for others. -/
def Partner (D : List String) (d : String) (n k : ConnectionId) : Prop :=
  D[n]? = some d ∧ k = rank D d n

theorem Partner.eq_iff {D : List String} {d : String} {n k n' k' : ConnectionId}
    (h : Partner D d n k) (h' : Partner D d n' k') : n = n' ↔ k = k' := by
  obtain ⟨hn, rfl⟩ := h
  obtain ⟨hn', rfl⟩ := h'
  exact ⟨fun heq => heq ▸ rfl, rank_injective hn hn'⟩

/-! ## Attempts by rank -/

section Attempts

variable {as : List Attempt} {D : List String} {d : String} {n : ConnectionId}

/-- Of the attempts for one database the one at a rank. -/
theorem getElem?_filter_rank (h : as.map Attempt.database <+: D) (hn : D[n]? = some d) :
    (as.filter fun a => a.database = d)[rank D d n]? = as[n]? := by
  induction as generalizing D n with
  | nil => simp
  | cons a as ih =>
    obtain ⟨e, D, rfl⟩ : ∃ e D', D = e :: D' := by
      cases D with
      | nil => simp at hn
      | cons e D' => exact ⟨e, D', rfl⟩
    rw [List.map_cons, List.cons_prefix_cons] at h
    obtain ⟨rfl, htail⟩ := h
    cases n with
    | zero =>
      have ha : a.database = d := Option.some.inj hn
      rw [List.filter_cons_of_pos (by simpa using ha), rank_zero]
      rfl
    | succ n =>
      by_cases ha : a.database = d
      · subst ha
        rw [List.filter_cons_of_pos (by simp), rank_cons_self]
        exact ih htail hn
      · rw [List.filter_cons_of_neg (by simpa using ha), rank_cons_of_ne ha]
        exact ih htail hn

/-- Replacing an attempt replaces the one at its rank. -/
theorem filter_set_rank (h : as.map Attempt.database <+: D) (hn : D[n]? = some d)
    (outcome : Option (Except Failure Unit)) :
    ((as.set n ⟨d, outcome⟩).filter fun a => a.database = d) =
      (as.filter fun a => a.database = d).set (rank D d n) ⟨d, outcome⟩ := by
  induction as generalizing D n with
  | nil => rfl
  | cons a as ih =>
    obtain ⟨e, D, rfl⟩ : ∃ e D', D = e :: D' := by
      cases D with
      | nil => simp at hn
      | cons e D' => exact ⟨e, D', rfl⟩
    rw [List.map_cons, List.cons_prefix_cons] at h
    obtain ⟨rfl, htail⟩ := h
    cases n with
    | zero =>
      have ha : a.database = d := Option.some.inj hn
      rw [List.filter_cons_of_pos (by simpa using ha), rank_zero, List.set_cons_zero,
        List.set_cons_zero, List.filter_cons_of_pos (by simp)]
    | succ n =>
      rw [List.set_cons_succ]
      by_cases ha : a.database = d
      · subst ha
        rw [List.filter_cons_of_pos (by simp), List.filter_cons_of_pos (by simp),
          rank_cons_self, List.set_cons_succ, ih htail hn]
      · rw [List.filter_cons_of_neg (by simpa using ha),
          List.filter_cons_of_neg (by simpa using ha), rank_cons_of_ne ha, ih htail hn]

/-- Replacing an attempt for another database makes no difference. -/
theorem filter_set_of_ne {e : String} (he : e ≠ d) {outcome outcome' : Option (Except Failure Unit)}
    (hn : as[n]? = some ⟨e, outcome⟩) :
    ((as.set n ⟨e, outcome'⟩).filter fun a => a.database = d) =
      as.filter fun a => a.database = d := by
  induction as generalizing n with
  | nil => rfl
  | cons a as ih =>
    cases n with
    | zero =>
      obtain rfl := Option.some.inj hn
      rw [List.set_cons_zero, List.filter_cons_of_neg (by simpa using he),
        List.filter_cons_of_neg (by simpa using he)]
    | succ n =>
      rw [List.set_cons_succ, List.filter_cons, List.filter_cons, ih hn]

end Attempts

/-! ## The attempts of a run -/

namespace Registry

variable {ω : Type} {c : Connector ω} {r s : Registry ω}

/-- The databases of all attempts, in order. -/
def attempted (r : Registry ω) : List String := r.attempts.map Attempt.database

/-- The attempts for one database. -/
def attemptsFor (d : String) (r : Registry ω) : List Attempt :=
  r.attempts.filter fun a => a.database = d

theorem length_attemptsFor (d : String) (r : Registry ω) :
    (r.attemptsFor d).length = r.attempted.count d := by
  unfold attemptsFor attempted
  rw [List.count, List.countP_map, List.countP_eq_length_filter]
  rfl

theorem getElem?_attempted (r : Registry ω) (n : ConnectionId) :
    r.attempted[n]? = r.database? n := List.getElem?_map

theorem Grows.attempted_prefix (h : r.Grows s) : r.attempted <+: s.attempted := by
  rw [List.prefix_iff_getElem?]
  intro n hn
  rw [getElem?_attempted]
  apply h.database
  rw [← getElem?_attempted]
  exact List.getElem?_eq_getElem hn

/-- A registry has attempts for the first of these databases. -/
def Leads (D : List String) (r : Registry ω) : Prop := r.attempted <+: D

theorem Leads.back {D : List String} (h : Moves c r s) (hs : s.Leads D) : r.Leads D :=
  h.grows.attempted_prefix.trans hs

end Registry

end Gateway
