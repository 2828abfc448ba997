import Gateway.Proofs.Registry.Shutdown
import Gateway.Proofs.Registry.SingleFlight
import Gateway.Proofs.Task.Runs

/-!
# Who makes connect calls

A connect call is made where an acquire call begins and finds the slot of its database
empty. So a visit that makes one is the first of its task, or one of a request for a page
with the total whose count is still to come (`Machine.begins_of_connects`). And what a slot
holds at the end of a run but not at its beginning came of a connect call that some visit of
the run has made (`Machine.exists_connects_of_slot?`).
-/

namespace Gateway

open Registry

variable {ω : Type} {c : Connector ω} {r s : Registry ω} {v : Visit ω} {a : Acquisition ω}

/-- The connect calls that a visit makes. -/
def Visit.connects (c : Connector ω) (v : Visit ω) : List (ConnectionId × String × String) :=
  (v.after c).connectCalls.drop v.registry.connectCalls.length

theorem Visit.connectCalls_after (v : Visit ω) :
    (v.after c).connectCalls = v.registry.connectCalls ++ v.connects c := by
  have hp : v.registry.trace <+: (v.after c).trace := (v.task.poll_moves v.registry).grows.trace
  have hcalls : v.registry.connectCalls <+: (v.after c).connectCalls :=
    hp.filterMap Event.connect?
  exact (List.prefix_iff_eq_append.mp hcalls).symm

/-! ## One visit -/

namespace Registry

theorem pollClose_connectCalls (hv : r.Valid) {stage : Closing} (hf : stage.Fits r) :
    (r.pollClose c stage).2.connectCalls = r.connectCalls := by
  have hdrains (hs : stage.Drains) :
      (r.pollClose c stage).2.connectCalls = r.connectCalls := by
    rcases pollClose_cases (c := c) hv hf hs with
      ⟨_, -, -, htrace, -⟩ | ⟨_, _, _, _, -, htakes, -⟩
    · rw [Registry.connectCalls, Registry.connectCalls, htrace]
    · exact connectCalls_of_trace htakes.trace
  cases stage with
  | fresh => exact hdrains trivial
  | draining ws => exact hdrains trivial
  | closing closes =>
    obtain ⟨_, _, _, hasks, -⟩ := goOnClosing_asks (c := c) closes r
    obtain ⟨world, log, hleft⟩ := hasks.left
    rw [pollClose, hleft]
    exact connectCalls_of_trace rfl

theorem Aside.connectCalls (h : Aside c r s) : s.connectCalls = r.connectCalls := by
  cases h with
  | log log => rfl
  | query he => simp [Registry.connectCalls, note, he.connect?]
  | find n database collection query => rfl
  | count n database collection filter => rfl

/-- An acquire call that goes on makes no connect call. -/
theorem pollAcquire_connectCalls {d : String} {stage : Acquiring} (h : stage ≠ .fresh) :
    (r.pollAcquire c d stage).2.connectCalls = r.connectCalls := by
  cases stage with
  | fresh => exact absurd rfl h
  | joined n =>
    unfold Registry.connectCalls pollAcquire
    rw [await_trace]

/-- An acquire call that had to stop waits for an attempt. -/
theorem pollAcquire_pending {d : String} {stage next : Acquiring}
    (h : (r.pollAcquire c d stage).1 = .pending next) : ∃ n, next = .joined n := by
  have hawait (n : ConnectionId) (r : Registry ω) (h : (r.await c d n).1 = .pending next) :
      ∃ n, next = .joined n := by
    have hw := await_awaited (c := c) d n r
    rw [h] at hw
    exact ⟨n, hw.1⟩
  cases stage with
  | joined n => exact hawait n r h
  | fresh =>
    unfold pollAcquire at h
    dsimp only at h
    split at h
    · simp at h
    · exact hawait _ _ h
    · exact hawait _ _ h

theorem Through.connectCalls {as : List (Acquisition ω)} (h : Through c as r s)
    (hs : ∀ a ∈ as, a.stage ≠ .fresh) : s.connectCalls = r.connectCalls := by
  induction h with
  | done => rfl
  | aside h _ ih => exact (ih hs).trans h.connectCalls
  | acquire _ ih =>
    obtain ⟨hfirst, hrest⟩ := List.forall_mem_cons.mp hs
    exact (ih hrest).trans (pollAcquire_connectCalls hfirst)

end Registry

/-- A visit without an acquire call that begins makes no connect call. -/
theorem Task.connectCalls_poll {t : Task} (hv : r.Valid) (hf : t.Fits r)
    (hs : ∀ a ∈ t.acquisitions c r, a.stage ≠ .fresh) :
    (t.poll c r).2.connectCalls = r.connectCalls := by
  cases t with
  | acquire d stage =>
    rw [poll, lift_snd]
    exact pollAcquire_connectCalls (hs _ List.mem_cons_self)
  | request kind req stage =>
    rw [poll, lift_snd]
    exact (pollRequest_through req r kind stage).connectCalls hs
  | close stage =>
    rw [poll, lift_snd]
    exact pollClose_connectCalls hv hf

/-- A request for a page with the total whose count is still to come. -/
def Task.CountsLater : Task → Prop
  | .request .pageWithTotal _ (.acquiringForFind _) => True
  | .request .pageWithTotal _ (.finding _) => True
  | _ => False

/-- A task in which an acquire call begins is fresh, or its count is to come. -/
theorem Task.begins_of_fresh {t : Task} {prev : Option (Acquisition ω)} (hw : t.Waits c prev)
    (ha : a ∈ t.acquisitions c r) (hs : a.stage = .fresh) :
    (∃ job, job ≠ .close ∧ t = .ofJob job) ∨ t.CountsLater := by
  -- an acquire call that had to stop does not begin
  have hgoes {stage : Acquiring} {d : String} (h : stage.Continues c prev d) :
      stage ≠ .fresh := by
    obtain ⟨b, -, -, hp⟩ := h
    obtain ⟨n, rfl⟩ := pollAcquire_pending hp
    intro hfresh
    cases hfresh
  cases t with
  | acquire d stage =>
    obtain rfl := List.mem_singleton.mp ha
    obtain rfl : stage = .fresh := hs
    exact .inl ⟨.acquire d, by simp, rfl⟩
  | request kind req stage =>
    obtain ⟨-, ⟨-, rfl | ⟨data, rfl⟩⟩ | ⟨-, rfl | ⟨rfl, ⟨k, rfl⟩ | ⟨n, rfl⟩⟩⟩⟩ :=
      stage_of_mem_requestAcquisitions ha
    · exact absurd hs (hgoes hw)
    · exact absurd hs (hgoes hw)
    · exact .inl ⟨.request kind req, by simp, rfl⟩
    · exact .inr trivial
    · exact .inr trivial
  | close stage => exact absurd ha List.not_mem_nil

/-! ## Runs -/

namespace Machine

variable {m : Machine ω} {actions : List (Action ω)}

theorem connectCalls_act (m : Machine ω) (act : Action ω) :
    (m.act c act).registry.connectCalls =
      m.registry.connectCalls ++ (m.visit? act).toList.flatMap (Visit.connects c) := by
  cases act with
  | start id job => simp [Machine.act, start, visit?]
  | drop id => simp [Machine.act, drop, visit?]
  | change f => simp [Machine.act, change, visit?, Registry.connectCalls]
  | poll id =>
    rcases ht : m.task? id with _ | t
    · simp [Machine.act, poll_of_none ht, visit?, ht]
    · have hafter : (m.act c (.poll id)).registry = Visit.after c ⟨t, m.registry⟩ :=
        registry_poll ht
      rw [hafter, Visit.connectCalls_after, visit?, ht]
      simp

/-- The connect calls of a run are made by its visits. -/
theorem connectCalls_run (m : Machine ω) (actions : List (Action ω)) :
    (m.run c actions).registry.connectCalls =
      m.registry.connectCalls ++ (m.visits c actions).flatMap (Visit.connects c) := by
  induction actions generalizing m with
  | nil => simp [visits]
  | cons act actions ih =>
      rw [run_cons, ih, connectCalls_act, visits, List.flatMap_append, List.append_assoc]

/-- A task that waits in an acquire call waits where its last poll had to stop. -/
theorem run_waits (c : Connector ω) (address : BaseAddress) (world : ω)
    (actions : List (Action ω)) :
    ∀ e ∈ ((initial address world).run c actions).tasks, ∃ prev, e.2.Waits c prev := by
  induction actions using List.reverseRecOn with
  | nil =>
      intro e he
      cases he
  | append_singleton actions act ih =>
      rw [run_append]
      intro e he
      rcases mem_tasks_act he with he | ⟨job, hjob⟩ | ⟨id, t, rfl, ht, hp⟩
      · exact ih e he
      · rw [hjob]
        exact ⟨none, Task.waits_ofJob job⟩
      · obtain ⟨prev, hw⟩ := ih _ (Entries.mem_of_get?_eq_some ht)
        exact ⟨_, (t.poll_linked hw _).2 e.2 hp⟩

/-- A visit that makes a connect call is the first of its task, or its count is to come. -/
theorem begins_of_connects {address : BaseAddress} {world : ω}
    (h : v ∈ (initial address world).visits c actions) (hc : v.connects c ≠ []) :
    (∃ job, job ≠ .close ∧ v.task = .ofJob job) ∨ v.task.CountsLater := by
  obtain ⟨hvalid, hfits⟩ := valid_of_mem_visits h
  obtain ⟨before, id, after, rfl, ht, -⟩ := exists_of_mem_visits h
  obtain ⟨prev, hw⟩ := run_waits c address world before _ (Entries.mem_of_get?_eq_some ht)
  by_contra hnot
  have hnone : ∀ a ∈ v.task.acquisitions c v.registry, a.stage ≠ .fresh := by
    intro a ha hs
    exact hnot (Task.begins_of_fresh hw ha hs)
  have hcalls : (v.after c).connectCalls = v.registry.connectCalls :=
    Task.connectCalls_poll hvalid hfits hnone
  rw [v.connectCalls_after, List.append_right_eq_self] at hcalls
  exact hc hcalls

end Machine

/-! ## Slots -/

namespace Registry

variable {d e : String} {n : ConnectionId}

/-- A slot is only given to a new attempt. -/
theorem Move.holds_back (hr : r.Consistent) (h : Move c r s) (hd : r.database? n = some d)
    (hs : s.Holds e n) : r.Holds e n := by
  obtain ⟨slot, hslot, rfl⟩ := hs
  cases h with
  | drift world log => exact ⟨slot, hslot, rfl⟩
  | query he => exact ⟨slot, hslot, rfl⟩
  | launch he =>
    rw [slot?_launch] at hslot
    split at hslot
    · obtain rfl := Option.some.inj hslot
      exact absurd (lt_length_of_database? hd) (Nat.lt_irrefl _)
    · exact ⟨slot, hslot, rfl⟩
  | fulfil hn _ => exact ⟨slot, hslot, rfl⟩
  | settle e' ho =>
    rename_i k outcome
    by_cases hs : r.slot? e' = some (.connecting k)
    · rcases (slot?_settle_eq_some hs outcome).mp hslot with ⟨rfl, -, rfl⟩ | ⟨-, hslot⟩
      · exact ⟨.connecting k, hs, rfl⟩
      · exact ⟨slot, hslot, rfl⟩
    · rw [settle_of_ne outcome hs] at hslot
      exact ⟨slot, hslot, rfl⟩
  | take => exact ⟨slot, ((slot?_take hr.names).mp hslot).1, rfl⟩
  | close => exact ⟨slot, hslot, rfl⟩

theorem Moves.holds_back (hr : r.Consistent) (h : Moves c r s) (hd : r.database? n = some d)
    (hs : s.Holds e n) : r.Holds e n := by
  induction h with
  | refl => exact hs
  | tail hm h ih =>
      have hdb := (Moves.grows hm).database hd
      exact ih (h.holds_back (hr.moves hm) hdb hs)

end Registry

/-- What a slot holds that was not held before came of a connect call since. -/
theorem Machine.exists_connects_of_slot? {m : Machine ω} {actions : List (Action ω)}
    (hv : m.registry.Valid) (hnone : m.registry.slots = []) {d : String} {slot : Slot}
    (hs : (m.run c actions).registry.slot? d = some slot) :
    ∃ v ∈ m.visits c actions, (slot.attempt, d, m.registry.address.urlFor d) ∈ v.connects c := by
  have hm := run_moves (c := c) m actions
  have hvalid := hv.moves hm
  have hd := hvalid.consistent.database hs
  have hcall := hvalid.recorded.mem_connectCalls.mpr ⟨hd, rfl⟩
  rw [connectCalls_run, hm.grows.address, List.mem_append, List.mem_flatMap] at hcall
  refine hcall.resolve_left fun hold => ?_
  have hdold := (hv.recorded.mem_connectCalls.mp hold).1
  obtain ⟨old, hold, -⟩ := hm.holds_back hv.consistent hdold ⟨slot, hs, rfl⟩
  rw [slot?, hnone] at hold
  simp [Entries.get?] at hold

end Gateway
