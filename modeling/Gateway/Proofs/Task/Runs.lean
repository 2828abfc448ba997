import Gateway.Proofs.Task.Calls
import Gateway.Proofs.Task.Steady

/-!
# The visits of a run

A run is the visits of its tasks, one after the other, and what happens to the world of the
connector in between. `Machine.visits` has those of all tasks, and `Machine.acquisitions`
the polls of their acquire calls. Each of them finds and leaves a registry of the run
(`Machine.of_mem_acquisitions`), whatever else the run does before and after.
-/

namespace Gateway

open Registry

variable {ω : Type} {c : Connector ω} {v : Visit ω} {a : Acquisition ω}

namespace Machine

variable {m : Machine ω}

/-- The visit that an action is. -/
def visit? (m : Machine ω) : Action ω → Option (Visit ω)
  | .poll id => (m.task? id).map fun t => ⟨t, m.registry⟩
  | _ => none

/-- The visits of all tasks along a run. -/
def visits (c : Connector ω) : List (Action ω) → Machine ω → List (Visit ω)
  | [], _ => []
  | act :: actions, m => (m.visit? act).toList ++ visits c actions (m.act c act)

/-- The polls of all acquire calls along a run. -/
def acquisitions (c : Connector ω) (actions : List (Action ω)) (m : Machine ω) :
    List (Acquisition ω) :=
  callPolls c (m.visits c actions)

theorem visits_append (before after : List (Action ω)) (m : Machine ω) :
    m.visits c (before ++ after) = m.visits c before ++ (m.run c before).visits c after := by
  induction before generalizing m with
  | nil => rfl
  | cons act before ih =>
      rw [List.cons_append, visits, visits, ih, List.append_assoc]
      rfl

/-- A visit of a run finds and leaves registries of the run. -/
theorem exists_of_mem_visits {actions : List (Action ω)} (h : v ∈ m.visits c actions) :
    ∃ before id after, actions = before ++ .poll id :: after ∧
      (m.run c before).task? id = some v.task ∧ (m.run c before).registry = v.registry := by
  induction actions generalizing m with
  | nil => exact absurd h List.not_mem_nil
  | cons act actions ih =>
      rw [visits, List.mem_append] at h
      rcases h with h | h
      · cases act with
        | poll id =>
          obtain ⟨t, ht, rfl⟩ := Option.map_eq_some_iff.mp (Option.mem_toList.mp h)
          exact ⟨[], id, actions, rfl, ht, rfl⟩
        | start id job => simp [visit?] at h
        | drop id => simp [visit?] at h
        | change f => simp [visit?] at h
      · obtain ⟨before, id, after, rfl, hrest⟩ := ih h
        exact ⟨act :: before, id, after, rfl, hrest⟩

/-- A visit leaves a registry from which the run goes on. -/
theorem moves_of_mem_visits {actions : List (Action ω)} (h : v ∈ m.visits c actions) :
    Moves c m.registry v.registry ∧ Moves c (v.after c) (m.run c actions).registry := by
  obtain ⟨before, id, after, rfl, ht, hr⟩ := exists_of_mem_visits h
  have hafter : ((m.run c before).act c (.poll id)).registry = v.after c := by
    rw [Visit.after, ← hr]
    exact registry_poll ht
  rw [← hr, run_append, run_cons, ← hafter]
  exact ⟨run_moves m before, run_moves _ after⟩

/-- The visits of one task are visits of the run. -/
theorem watch_subset_visits {id : String} {actions : List (Action ω)} :
    (m.watch c id actions).1 ⊆ m.visits c actions := by
  induction actions generalizing m with
  | nil => exact List.Subset.refl _
  | cons act actions ih =>
    have hrest {visits : List (Visit ω)} (h : visits ⊆ (m.act c act).visits c actions) :
        visits ⊆ m.visits c (act :: actions) := fun _ hv => List.mem_append_right _ (h hv)
    cases act with
    | start other job => exact hrest ih
    | change f => exact hrest ih
    | drop other =>
      by_cases ho : other = id
      · rw [watch, if_pos ho]
        exact List.nil_subset _
      · rw [watch, if_neg ho]
        exact hrest ih
    | poll other =>
      by_cases ho : other = id
      · subst ho
        rcases ht : m.task? other with _ | t
        · rw [watch, if_pos rfl, ht]
          exact List.nil_subset _
        · rw [watch, if_pos rfl, ht, visits, visit?, ht]
          rcases hp : (t.poll c m.registry).1 with next | result
          · simp only [hp]
            exact List.cons_subset_cons _ ih
          · simp only [hp]
            exact List.cons_subset_cons _ (List.nil_subset _)
      · rw [watch, if_neg ho]
        exact hrest ih

/-- The acquire calls of a poll are among those of the run. -/
theorem mem_acquisitions {before : List (Action ω)} {id : String} {t : Task}
    (ht : (m.run c before).task? id = some t)
    (ha : a ∈ t.acquisitions c (m.run c before).registry) (after : List (Action ω)) :
    a ∈ m.acquisitions c (before ++ .poll id :: after) := by
  refine List.mem_flatMap.mpr ⟨⟨t, (m.run c before).registry⟩, ?_, ha⟩
  rw [visits_append, visits, visit?, ht]
  exact List.mem_append_right _ List.mem_cons_self

/-- What a visit of a run from the beginning finds is valid and fits its task. -/
theorem valid_of_mem_visits {address : BaseAddress} {world : ω} {actions : List (Action ω)}
    (h : v ∈ (initial address world).visits c actions) :
    v.registry.Valid ∧ v.task.Fits v.registry := by
  obtain ⟨before, id, after, rfl, ht, hr⟩ := exists_of_mem_visits h
  rw [← hr]
  exact ⟨run_valid c address world before, (run_fits c address world before).task? ht⟩

end Machine

/-! ## Acquire calls -/

theorem Registry.Through.moves {as : List (Acquisition ω)} {r s : Registry ω}
    (h : Through c as r s) : Moves c r s := h.steps.moves

theorem Registry.Through.moves_of_mem {as : List (Acquisition ω)} {r s : Registry ω}
    (h : Through c as r s) (ha : a ∈ as) : Moves c r a.registry ∧ Moves c (a.after c) s := by
  induction h with
  | done => exact absurd ha List.not_mem_nil
  | aside h _ ih => exact ⟨h.moves.trans (ih ha).1, (ih ha).2⟩
  | @acquire b _ _ rest ih =>
    rcases List.mem_cons.mp ha with rfl | ha
    · exact ⟨.refl, rest.moves⟩
    · have hb := pollAcquire_moves (c := c) b.database b.stage b.registry
      exact ⟨hb.trans (ih ha).1, (ih ha).2⟩

/-- The acquire calls of a visit find and leave registries between those of the visit. -/
theorem Task.moves_of_mem_acquisitions {t : Task} {r : Registry ω} (ha : a ∈ t.acquisitions c r) :
    Moves c r a.registry ∧ Moves c (a.after c) (t.poll c r).2 := by
  cases t with
  | acquire database stage =>
    obtain rfl := List.mem_singleton.mp ha
    rw [poll, lift_snd]
    exact ⟨.refl, .refl⟩
  | request kind req stage =>
    rw [poll, lift_snd]
    exact (pollRequest_through req r kind stage).moves_of_mem ha
  | close stage => exact absurd ha List.not_mem_nil

theorem Task.Fits.of_mem_acquisitions {t : Task} {r : Registry ω} (hf : t.Fits r)
    (ha : a ∈ t.acquisitions c r) : a.stage.Fits a.database a.registry := by
  cases t with
  | acquire database stage =>
    obtain rfl := List.mem_singleton.mp ha
    exact hf
  | request kind req stage => exact fits_of_mem_requestAcquisitions hf ha
  | close stage => exact absurd ha List.not_mem_nil

/-- The attempt that an acquire call comes to or waits for. -/
def Acquisition.attempt (a : Acquisition ω) : ConnectionId := a.stage.attempt a.database a.registry

/-- What is known of a poll of an acquire call of a run that ends with the registry `s`. -/
structure Acquisition.Of (c : Connector ω) (s : Registry ω) (a : Acquisition ω) : Prop where
  valid : a.registry.Valid
  fits : a.stage.Fits a.database a.registry
  grows : (a.after c).Grows s

theorem Machine.of_mem_acquisitions {address : BaseAddress} {world : ω}
    {actions : List (Action ω)} (h : a ∈ (initial address world).acquisitions c actions) :
    a.Of c ((initial address world).run c actions).registry := by
  obtain ⟨v, hv, ha⟩ := List.mem_flatMap.mp h
  obtain ⟨hvalid, hfits⟩ := valid_of_mem_visits hv
  obtain ⟨hbefore, hafter⟩ := v.task.moves_of_mem_acquisitions ha
  have hrest : Moves c (a.after c) ((initial address world).run c actions).registry :=
    hafter.trans (moves_of_mem_visits hv).2
  exact ⟨hvalid.moves hbefore, hfits.of_mem_acquisitions ha, hrest.grows⟩

namespace Acquisition.Of

variable {s : Registry ω}

/-- An acquire call comes to an attempt for its database. -/
theorem database? (h : a.Of c s) : s.database? a.attempt = some a.database :=
  h.grows.database (pollAcquire_database? h.valid h.fits)

/-- An acquire call ends with the outcome of its attempt. -/
theorem outcome? (h : a.Of c s) {result : Except Failure ConnectionId}
    (hp : a.progress c = .ready result) :
    ∃ o, s.outcome? a.attempt = some o ∧ result = o.map fun _ => a.attempt := by
  have hw := pollAcquire_awaited (c := c) h.valid a.database a.stage
  have hp : (a.registry.pollAcquire c a.database a.stage).1 = .ready result := hp
  rw [hp] at hw
  obtain ⟨o, ho, hresult⟩ := hw
  exact ⟨o, h.grows.outcome ho, hresult⟩

/-- An acquire call that has to go on waiting waits for its attempt. -/
theorem pending (h : a.Of c s) {next : Acquiring} (hp : a.progress c = .pending next) :
    next = .joined a.attempt := by
  have hw := pollAcquire_awaited (c := c) h.valid a.database a.stage
  have hp : (a.registry.pollAcquire c a.database a.stage).1 = .pending next := hp
  rw [hp] at hw
  exact hw.1

end Acquisition.Of

end Gateway
