import Gateway.Proofs.Registry.Taking
import Gateway.Proofs.Task.Steady
import Gateway.Proofs.Task.Visits
import Gateway.Store.Memory

/-!
# Close calls that are owed

A closing task that takes connections owes each of them a close call. It makes the call in the
same poll or, when it took many, in a later one, unless it is dropped before. So at any moment
of a run the connections that were taken are those that were closed, those that a task owes
their close call, and those that were lost with such a task (`Machine.run_taken_perm`). A task
that takes few connections owes nothing after that poll (`Machine.run_together`).
-/

namespace Gateway

open Registry

variable {ω : Type} {c : Connector ω} {r : Registry ω}

/-- The connections whose close calls a task has still to start. -/
def Task.owed : Task → List (String × ConnectionId)
  | .close (.closing closes) => closes.queued
  | _ => []

/-- What is owed after a poll; a task that is ready owes nothing. -/
def Progress.owed : Progress Task (Except Failure Outcome) → List (String × ConnectionId)
  | .pending next => next.owed
  | .ready _ => []

namespace Machine

/-- The connections whose close calls are still to be started. -/
def owed (m : Machine ω) : List (String × ConnectionId) := m.tasks.flatMap fun e => e.2.owed

/-- The connections that an action loses: those whose close calls a task owes that is dropped. -/
def lostBy (m : Machine ω) : Action ω → List (String × ConnectionId)
  | .drop id => (m.tasks.filter fun e => e.1 = id).flatMap fun e => e.2.owed
  | _ => []

/-- The connections that are lost along a run. -/
def lost (c : Connector ω) : List (Action ω) → Machine ω → List (String × ConnectionId)
  | [], _ => []
  | a :: actions, m => m.lostBy a ++ lost c actions (m.act c a)

end Machine

/-! ## Who closes -/

namespace Registry

/-- From one registry to another nothing is taken and no close call is made. -/
def Leaves (r s : Registry ω) : Prop := s.closeCalls = r.closeCalls ∧ s.takes = r.takes

theorem Leaves.closings {s : Registry ω} (h : r.Leaves s) : s.closings = r.closings := by
  rw [Registry.closings, Registry.closings, h.1]

theorem pollAcquire_leaves (d : String) (stage : Acquiring) (r : Registry ω) :
    r.Leaves (r.pollAcquire c d stage).2 := by
  have hawait (n : ConnectionId) (s : Registry ω) : s.Leaves (s.await c d n).2 := by
    obtain ⟨_, _, _, _, h⟩ := await_eq (c := c) d n s
    rw [h]
    exact ⟨rfl, rfl⟩
  cases stage with
  | joined n => exact hawait n r
  | fresh =>
    simp only [pollAcquire]
    split
    · exact ⟨rfl, rfl⟩
    · exact hawait _ (r.say (fetchRecord d))
    · obtain ⟨hcalls, htakes⟩ :=
        hawait r.attempts.length ((r.say (fetchRecord d)).launch d)
      exact ⟨hcalls.trans (closeCalls_launch (r.say (fetchRecord d)) d), htakes⟩

/-- Neither who acquires nor who requests takes or closes a connection. -/
theorem steady_leaves : Steady c (Leaves : Registry ω → Registry ω → Prop) where
  refl _ := ⟨rfl, rfl⟩
  trans hr hs := ⟨hs.1.trans hr.1, hs.2.trans hr.2⟩
  drift _ _ _ := ⟨rfl, rfl⟩
  query {r e} he := ⟨by simp [closeCalls, note, he.close?], rfl⟩
  acquire {r d stage} _ _ := pollAcquire_leaves d stage r

end Registry

/-! ## One poll -/

/-- What a task owed and what its poll takes is closed by the poll or owed after it. -/
structure Task.Pays (c : Connector ω) (t : Task) (r : Registry ω)
    (started : List (String × ConnectionId)) (batches : List (List (String × ConnectionId))) :
    Prop where
  closings : (t.poll c r).2.closings = r.closings ++ started
  takes : (t.poll c r).2.takes = r.takes ++ batches
  paid : t.owed ++ batches.flatten = started ++ (t.poll c r).1.owed
  together : ∀ batch ∈ batches, batch.length ≤ togetherBound → batch ⊆ started

theorem Task.pays_of_leaves {t : Task} (h : r.Leaves (t.poll c r).2) (hbefore : t.owed = [])
    (hafter : (t.poll c r).1.owed = []) : t.Pays c r [] [] where
  closings := by
    rw [h.closings, List.append_nil]
  takes := by
    rw [h.2, List.append_nil]
  paid := by
    rw [hbefore, hafter]
    rfl
  together _ hmem := absurd hmem List.not_mem_nil

/-- What a closing task owes when it has asked its calls. -/
theorem Progress.owed_of_finish {closes : Closes}
    {p : Progress Closing (Except Failure Unit) × Registry ω}
    (h : p.1 = (r.finishClose closes).1) :
    (Task.lift .close (fun _ => .closed) p).1.owed = closes.queued := by
  obtain ⟨next | result, s⟩ := p
  · obtain rfl := finishClose_pending h.symm
    rfl
  · obtain ⟨hqueued, -⟩ := finishClose_ready h.symm
    rw [hqueued]
    rfl

theorem Closing.pays_of_drains (hv : r.Valid) {stage : Closing} (hf : stage.Fits r)
    (hs : stage.Drains) : ∃ started batches, (Task.close stage).Pays c r started batches := by
  have howed : (Task.close stage).owed = [] := by
    cases stage with
    | fresh => rfl
    | draining ws => rfl
    | closing closes => exact hs.elim
  have hafter : ((Task.close stage).poll c r).2 = (r.pollClose c stage).2 := by
    rw [Task.poll, Task.lift_snd]
  rcases pollClose_cases (c := c) hv hf hs with
    ⟨ws, hp, htakes, htrace, -⟩ | ⟨taken, _, started, closes, hp, htakes, hadv, -⟩
  · refine ⟨[], [], Task.pays_of_leaves ?_ howed ?_⟩
    · rw [hafter]
      exact ⟨by rw [closeCalls, closeCalls, htrace], htakes⟩
    · rw [Task.poll, Task.lift_of_pending hp]
      rfl
  · refine ⟨started, [taken], ?_, ?_, ?_, ?_⟩
    · rw [hafter]
      exact closings_of_trace htakes.trace
    · rw [hafter]
      exact htakes.takes
    · rw [howed, Task.poll, Progress.owed_of_finish hp, ← hadv.queued, List.flatten_singleton]
      rfl
    · intro batch hmem hlen
      obtain rfl := List.mem_singleton.mp hmem
      rw [htakes.together hlen]
      exact List.Subset.refl _

theorem Closing.pays (hv : r.Valid) {stage : Closing} (hf : stage.Fits r) :
    ∃ started batches, (Task.close stage).Pays c r started batches := by
  cases stage with
  | fresh => exact pays_of_drains hv hf trivial
  | draining ws => exact pays_of_drains hv hf trivial
  | closing closes =>
    obtain ⟨_, started, closes', hasks, -⟩ := goOnClosing_asks (c := c) closes r
    obtain ⟨world, log, hleft⟩ := hasks.left
    have hafter : ((Task.close (.closing closes)).poll c r).2 = (r.goOnClosing c closes).2 := by
      rw [Task.poll, Task.lift_snd, pollClose]
    refine ⟨started, [], ?_, ?_, ?_, fun _ hmem => absurd hmem List.not_mem_nil⟩
    · rw [hafter, hleft]
      exact closings_of_trace rfl
    · rw [hafter, hleft, List.append_nil]
    · rw [Task.poll, pollClose, Progress.owed_of_finish hasks.told, ← hasks.advances.queued,
        List.flatten_nil, List.append_nil]
      rfl

/-- Every poll closes, of what its task owed and what it takes, all that is not owed after it. -/
theorem Task.pays (hv : r.Valid) {t : Task} (hf : t.Fits r) :
    ∃ started batches, t.Pays c r started batches := by
  cases t with
  | acquire d stage =>
    refine ⟨[], [], pays_of_leaves ?_ rfl ?_⟩
    · rw [poll, lift_snd]
      exact pollAcquire_leaves d stage r
    · rw [poll]
      rcases r.pollAcquire c d stage with ⟨_ | _, _⟩ <;> rfl
  | request kind req stage =>
    refine ⟨[], [], pays_of_leaves ?_ rfl ?_⟩
    · rw [poll, lift_snd]
      exact steady_leaves.pollRequest hv kind hf
    · rw [poll]
      rcases r.pollRequest c kind req stage with ⟨_ | _, _⟩ <;> rfl
  | close stage => exact Closing.pays hv hf

/-! ## Runs -/

namespace Machine

variable {m : Machine ω}

theorem lost_append (before after : List (Action ω)) (m : Machine ω) :
    m.lost c (before ++ after) = m.lost c before ++ (m.run c before).lost c after := by
  induction before generalizing m with
  | nil => rfl
  | cons a before ih =>
      rw [List.cons_append, lost, lost, ih, List.append_assoc]
      rfl

/-- The connections that were taken are closed, owed their close call, or among the given ones. -/
def Accounts (m : Machine ω) (lost : List (String × ConnectionId)) : Prop :=
  m.registry.takes.flatten.Perm (m.registry.closings ++ (m.owed ++ lost))

section Accounts

variable {lost : List (String × ConnectionId)}

/-- A connection that is closed was taken before. -/
theorem Accounts.takes_of_closings (h : m.Accounts lost) {e : String × ConnectionId}
    (he : e ∈ m.registry.closings) : e ∈ m.registry.takes.flatten :=
  h.mem_iff.mpr (List.mem_append_left _ he)

theorem Accounts.mem_taken_of_closed (h : m.Accounts lost) {n : ConnectionId}
    (hn : n ∈ m.registry.closed) : n ∈ m.registry.taken := by
  rw [← map_snd_closings] at hn
  obtain ⟨e, he, rfl⟩ := List.mem_map.mp hn
  exact List.mem_map_of_mem (h.takes_of_closings he)

theorem Accounts.drop (h : m.Accounts lost) (id : String) :
    (m.drop id).Accounts (lost ++ m.lostBy (.drop id)) := by
  have hsplit : (m.lostBy (.drop id) ++ (m.drop id).owed).Perm m.owed := by
    rw [lostBy, owed, owed, Machine.drop, Entries.erase, ← List.flatMap_append]
    refine List.Perm.flatMap_right _ ?_
    have hfilter := List.filter_append_perm (fun e : String × Task => e.1 = id) m.tasks
    simpa only [decide_not] using hfilter
  refine h.trans (List.Perm.append_left _ ?_)
  rw [List.perm_iff_count] at hsplit ⊢
  intro e
  have hn := hsplit e
  simp only [List.count_append] at hn ⊢
  omega

theorem Accounts.poll (h : m.Accounts lost) (hv : m.registry.Valid) (hf : m.Fits) (id : String) :
    (m.poll c id).2.Accounts lost := by
  rcases ht : m.task? id with _ | t
  · rwa [poll_of_none ht]
  · obtain ⟨before, after, htasks, -, hpoll⟩ := poll_of_some c ht
    obtain ⟨started, batches, hpays⟩ := Task.pays (c := c) hv (hf.task? ht)
    have hr : (m.poll c id).2.registry = (t.poll c m.registry).2 := registry_poll ht
    -- in place of what the polled task owed there is what it owes now
    have howed : (m.poll c id).2.owed = before.flatMap (fun e => e.2.owed) ++
        ((t.poll c m.registry).1.owed ++ after.flatMap fun e => e.2.owed) := by
      rw [hpoll]
      rcases t.poll c m.registry with ⟨next | result, r⟩
      all_goals simp [owed, Progress.owed]
    have hbefore : m.owed = before.flatMap (fun e => e.2.owed) ++
        (t.owed ++ after.flatMap fun e => e.2.owed) := by
      rw [owed, htasks]
      simp
    have htaken : (m.poll c id).2.registry.takes.flatten =
        m.registry.takes.flatten ++ batches.flatten := by
      rw [hr, hpays.takes, List.flatten_append]
    rw [Accounts, hbefore, List.perm_iff_count] at h
    rw [Accounts, htaken, howed, hr, hpays.closings, List.perm_iff_count]
    intro e
    have hn := h e
    have hpaid := congrArg (List.count e) hpays.paid
    simp only [List.count_append] at hn hpaid ⊢
    omega

theorem Accounts.act (h : m.Accounts lost) (hv : m.registry.Valid) (hf : m.Fits) (a : Action ω) :
    (m.act c a).Accounts (lost ++ m.lostBy a) := by
  cases a with
  | start id job =>
    have howed : (m.start id job).owed = m.owed := by
      cases job <;> simp [owed, start, Task.ofJob, Task.owed]
    change (m.start id job).Accounts (lost ++ [])
    rw [List.append_nil, Accounts, howed]
    exact h
  | poll id =>
    change (m.poll c id).2.Accounts (lost ++ [])
    rw [List.append_nil]
    exact h.poll hv hf id
  | drop id => exact h.drop id
  | change f =>
    change (m.change f).Accounts (lost ++ [])
    rw [List.append_nil]
    exact h

end Accounts

/-- **Nothing that is taken disappears.** At any moment of any run the connections that closing
tasks have taken are, each once, those that were closed, those whose close calls are still to
be started, and those that were lost with a task that was dropped before it did so. -/
theorem run_taken_perm (c : Connector ω) (address : BaseAddress) (world : ω)
    (actions : List (Action ω)) :
    ((initial address world).run c actions).Accounts ((initial address world).lost c actions) := by
  induction actions using List.reverseRecOn with
  | nil => exact .nil
  | append_singleton actions a ih =>
      have hv := run_valid c address world actions
      have hf := run_fits c address world actions
      rw [run_append, run_cons, run_nil, lost_append, lost, lost, List.append_nil]
      exact ih.act hv hf a

/-- What is taken together with few others is closed by the same poll. -/
theorem run_together (c : Connector ω) (address : BaseAddress) (world : ω)
    (actions : List (Action ω)) :
    let r := ((initial address world).run c actions).registry
    ∀ batch ∈ r.takes, batch.length ≤ togetherBound → batch ⊆ r.closings := by
  intro r
  induction actions using List.reverseRecOn with
  | nil => exact fun _ hmem => absurd hmem List.not_mem_nil
  | append_singleton actions a ih =>
      have hv := run_valid c address world actions
      have hf := run_fits c address world actions
      have hact : r = (((initial address world).run c actions).act c a).registry := by
        rw [← run_nil c (((initial address world).run c actions).act c a), ← run_cons,
          ← run_append]
      rw [hact]
      cases a with
      | start id job => exact ih
      | drop id => exact ih
      | change f => exact ih
      | poll id =>
        rcases ht : ((initial address world).run c actions).task? id with _ | t
        · rw [act, poll_of_none ht]
          exact ih
        · obtain ⟨started, batches, hpays⟩ := Task.pays (c := c) hv (hf.task? ht)
          rw [act, registry_poll ht, hpays.takes, hpays.closings]
          intro batch hmem hlen
          rcases List.mem_append.mp hmem with hmem | hmem
          · exact List.Subset.trans (ih batch hmem hlen) (List.subset_append_left _ _)
          · exact List.Subset.trans (hpays.together batch hmem hlen) (List.subset_append_right _ _)

end Machine

/-! ## Many connections -/

end Gateway
