import Gateway.Proofs.Registry.Taking
import Gateway.Proofs.Task.Steady
import Gateway.Proofs.Task.Visits

/-!
# Failed attempts that linger in their slot

A task that waits for one attempt settles it in the very poll that sees it fail. A closing
task waits for several at once and settles them together, so an attempt that failed early
stays in its slot until the last of them has answered, or for good when the closing task is
dropped.

A failed attempt is only found in its slot after a poll of a closing task that had to wait
on (`Visit.LeavesFailed`), and every such poll leaves it there.
-/

namespace Gateway

variable {ω : Type} {c : Connector ω} {r s : Registry ω} {d : String} {n : ConnectionId}
  {f : Failure}

namespace Registry

/-- A failed attempt is in the slot of a database. -/
def Lingers (r : Registry ω) (d : String) (n : ConnectionId) (f : Failure) : Prop :=
  r.slot? d = some (.connecting n) ∧ r.outcome? n = some (.error f)

/-- No failed attempt has come to linger. -/
def NoneLingersAnew (r s : Registry ω) : Prop :=
  ∀ d n f, s.Lingers d n f → r.Lingers d n f

theorem slot?_advance (n : ConnectionId) (r : Registry ω) (d : String) :
    (r.advance c n).2.slot? d = r.slot? d := by
  rw [slot?, advance_slots]
  rfl

theorem lingers_advance {k : ConnectionId} (h : (r.advance c k).2.Lingers d n f)
    (hne : n ≠ k) : r.Lingers d n f := by
  obtain ⟨hs, ho⟩ := h
  rw [slot?_advance] at hs
  rw [advance_outcome?_of_ne hne] at ho
  exact ⟨hs, ho⟩

/-- Who waits for one attempt settles it with the poll that sees it fail. -/
theorem await_noneLingersAnew (hr : r.Consistent) (hd : r.database? n = some d) :
    r.NoneLingersAnew (r.await c d n).2 := by
  intro e k g h
  have ho := advance_fst (c := c) n r
  have hm := advance_moves (c := c) n r
  rcases ha : r.advance c n with ⟨_ | o, r'⟩
  all_goals rw [ha] at ho hm; simp only [await, ha] at h
  -- not answered: the attempt that was asked has no outcome, so it is another one
  · have hne : k ≠ n := by
      rintro rfl
      have ho : none = r'.outcome? k := ho
      rw [h.2] at ho
      simp at ho
    have h' : (r.advance c n).2.Lingers e k g := by rwa [ha]
    exact lingers_advance h' hne
  -- answered: the attempt that was asked has left its slot
  · obtain ⟨hslot, hout⟩ := h
    obtain ⟨hs, hpair⟩ := connecting_of_settle hslot
    rw [outcome?_settle] at hout
    have hne : k ≠ n := by
      intro hkn
      have he := (hr.moves hm).database hs
      rw [Slot.attempt, hkn, hm.grows.database hd] at he
      obtain rfl := Option.some.inj he
      exact hpair (by rw [hkn])
    have h' : (r.advance c n).2.Lingers e k g := by
      rw [ha]
      exact ⟨hs, hout⟩
    exact lingers_advance h' hne

theorem launch_noneLingersAnew (d : String) (r : Registry ω) :
    r.NoneLingersAnew (r.launch d) := by
  rintro e k g ⟨hs, ho⟩
  rw [outcome?_launch] at ho
  rw [slot?_launch] at hs
  split at hs
  · obtain rfl := Slot.connecting.inj (Option.some.inj hs)
    obtain ⟨e', he'⟩ := exists_database?_of_outcome? ho
    exact absurd (lt_length_of_database? (attempts_eq_some.mp he').1) (Nat.lt_irrefl _)
  · exact ⟨hs, ho⟩

theorem pollAcquire_noneLingersAnew (hv : r.Valid) {stage : Acquiring}
    (hf : stage.Fits d r) : r.NoneLingersAnew (r.pollAcquire c d stage).2 := by
  cases stage with
  | joined n => exact await_noneLingersAnew hv.consistent hf
  | fresh =>
    have hsay : (r.say (fetchRecord d)).slot? d = r.slot? d := rfl
    have hv' := hv.moves (say_moves (c := c) r (fetchRecord d))
    rcases hs : r.slot? d with _ | ⟨n | n⟩
    · have hl : Moves c (r.say (fetchRecord d)) _ := .of_move (.launch hs)
      have hdb : ((r.say (fetchRecord d)).launch d).database? r.attempts.length = some d := by
        rw [database?_launch]
        exact if_pos rfl
      simp only [pollAcquire, hsay, hs]
      intro e k g h
      have h := await_noneLingersAnew (hv'.moves hl).consistent hdb e k g h
      exact launch_noneLingersAnew d (r.say (fetchRecord d)) e k g h
    · simp only [pollAcquire, hsay, hs]
      exact await_noneLingersAnew hv'.consistent (hv.consistent.database hs)
    · simp only [pollAcquire, hsay, hs]
      exact fun _ _ _ h => h

theorem steady_noneLingersAnew : Steady c (NoneLingersAnew (ω := ω)) where
  refl _ _ _ _ h := h
  trans hr hs d n f h := hr d n f (hs d n f h)
  drift _ _ _ _ _ _ h := h
  query _ _ _ _ h := h
  acquire hv hf := pollAcquire_noneLingersAnew hv hf

/-! ## Closing -/

theorem lingers_advanceAll {ws : List (String × ConnectionId)} (hr : r.Consistent)
    (hw : r.Awaits ws) (h : (r.advanceAll c ws).2.Lingers d n f) :
    r.Lingers d n f ∨ (d, n) ∈ ws := by
  by_cases hmem : n ∈ ws.map Prod.snd
  · obtain ⟨⟨e, k⟩, hek, rfl⟩ := List.mem_map.mp hmem
    have hm := advanceAll_moves (c := c) ws r
    have hd := (hr.moves hm).database h.1
    have he := hm.grows.database (hw.database hek)
    rw [Slot.attempt, he] at hd
    obtain rfl := Option.some.inj hd
    exact .inr hek
  · obtain ⟨hs, ho⟩ := h
    rw [slot?, advanceAll_slots] at hs
    rw [advanceAll_outcome?_of_notMem hmem] at ho
    exact .inl ⟨hs, ho⟩

/-- A round that is over leaves none of its attempts. -/
theorem lingers_settleAll {ws : List (String × ConnectionId)} (hr : r.Consistent)
    (hw : r.Awaits ws) (h : ((r.advanceAll c ws).2.settleAll ws).Lingers d n f) :
    r.Lingers d n f := by
  obtain ⟨hs, hnone⟩ := connecting_of_settleAll h.1
  have ho := h.2
  rw [outcome?, settleAll_attempts] at ho
  refine (lingers_advanceAll hr hw ⟨hs, ho⟩).resolve_right fun hmem => ?_
  have hn := hnone hmem
  rw [outcome?, ho] at hn
  simp at hn

theorem lingers_drain (rounds : Nat) {ws : List (String × ConnectionId)} (hr : r.Consistent)
    (hw : r.Awaits ws) (h : (r.drain c rounds ws).2.Lingers d n f) :
    r.Lingers d n f ∨ ∃ ws', (r.drain c rounds ws).1 = some ws' ∧ (d, n) ∈ ws' := by
  induction rounds generalizing r ws with
  | zero => exact .inl h
  | succ rounds ih =>
      by_cases hne : ws = []
      · rw [hne, drain_nil] at h
        exact .inl h
      · rcases ha : (r.advanceAll c ws).1
        · rw [drain_of_unanswered rounds hne ha] at h ⊢
          rcases lingers_advanceAll hr hw h with h | hmem
          · exact .inl h
          · exact .inr ⟨ws, rfl, hmem⟩
        · rw [drain_of_answered rounds hne ha] at h ⊢
          have hm := (advanceAll_moves (c := c) ws r).trans (settleAll_moves ws _)
          have hr' := hr.moves hm
          rcases ih hr' (awaits_inFlight hr') h with h | hmem
          · exact .inl (lingers_settleAll hr hw h)
          · exact .inr hmem

theorem lingers_take (hr : r.Consistent) (h : r.takeEstablished.2.Lingers d n f) :
    r.Lingers d n f :=
  ⟨((slot?_take hr.names).mp h.1).1, h.2⟩

theorem lingers_goOnClosing {closes : Closes} (h : (r.goOnClosing c closes).2.Lingers d n f) :
    r.Lingers d n f := by
  obtain ⟨_, _, _, hasks, -⟩ := goOnClosing_asks (c := c) closes r
  obtain ⟨world, log, hleft⟩ := hasks.left
  rw [hleft] at h
  exact h

/-- A closing task that leaves a failed attempt behind waits for it in its round, together
with another one that has not answered. -/
theorem lingers_drainAndClose (hv : r.Valid) {ws : List (String × ConnectionId)}
    (hw : r.Awaits ws) (hnil : ws = [] → r.inFlight = [])
    (h : (r.drainAndClose c ws).2.Lingers d n f) :
    r.Lingers d n f ∨ ∃ ws', (r.drainAndClose c ws).1 = .pending (.draining ws') ∧
      (d, n) ∈ ws' ∧ ∃ w ∈ ws', (r.drainAndClose c ws).2.outcome? w.2 = none := by
  have hd := drain_drained (c := c) hv.consistent hw hnil
  have hl := lingers_drain (c := c) (d := d) (n := n) (f := f) maxRounds hv.consistent hw
  have hm := drain_moves (c := c) maxRounds ws r
  rcases hp : r.drain c maxRounds ws with ⟨_ | ws', r'⟩
  all_goals rw [hp] at hd hl hm; simp only [drainAndClose, hp] at h ⊢
  · left
    have htake := lingers_take (hv.moves hm).consistent (lingers_goOnClosing h)
    exact (hl htake).resolve_right (by simp)
  · rcases hl h with hl | ⟨ws'', hws, hmem⟩
    · exact .inl hl
    · obtain rfl := Option.some.inj hws
      exact .inr ⟨ws', rfl, hmem, hd.2⟩

theorem lingers_pollClose (hv : r.Valid) {stage : Closing} (hf : stage.Fits r)
    (h : (r.pollClose c stage).2.Lingers d n f) :
    r.Lingers d n f ∨ ∃ ws, (r.pollClose c stage).1 = .pending (.draining ws) ∧
      (d, n) ∈ ws ∧ ∃ w ∈ ws, (r.pollClose c stage).2.outcome? w.2 = none := by
  cases stage with
  | fresh => exact lingers_drainAndClose hv (awaits_inFlight hv.consistent) id h
  | draining ws => exact lingers_drainAndClose hv hf.2 (fun hnil => absurd hnil hf.1) h
  | closing closes => exact .inl (lingers_goOnClosing h)

/-- The attempts that draining waits on for are in their slots, or were waited for before. -/
theorem drain_slots (rounds : Nat) {ws ws' : List (String × ConnectionId)} (hr : r.Consistent)
    (h : (r.drain c rounds ws).1 = some ws') :
    (ws' = ws ∧ (r.drain c rounds ws).2.slots = r.slots) ∨
      ∀ d n, (d, n) ∈ ws' → (r.drain c rounds ws).2.slot? d = some (.connecting n) := by
  induction rounds generalizing r ws with
  | zero => exact .inl ⟨(Option.some.inj h).symm, rfl⟩
  | succ rounds ih =>
      by_cases hne : ws = []
      · simp [hne, drain_nil] at h
      · rcases ha : (r.advanceAll c ws).1
        · rw [drain_of_unanswered rounds hne ha] at h ⊢
          exact .inl ⟨(Option.some.inj h).symm, advanceAll_slots ws r⟩
        · rw [drain_of_answered rounds hne ha] at h ⊢
          have hm := (advanceAll_moves (c := c) ws r).trans (settleAll_moves ws _)
          have hr' := hr.moves hm
          rcases ih hr' h with ⟨rfl, hslots⟩ | hin
          · right
            intro d n hmem
            rw [slot?, hslots]
            exact (mem_inFlight hr').mp hmem
          · exact .inr hin

theorem connecting_of_drainAndClose (hr : r.Consistent) {ws ws' : List (String × ConnectionId)}
    (hw : r.Awaits ws) (h : (r.drainAndClose c ws).1 = .pending (.draining ws'))
    (hmem : (d, n) ∈ ws') (ho : r.outcome? n = none) :
    (r.drainAndClose c ws).2.slot? d = some (.connecting n) := by
  have hs {waiting : List (String × ConnectionId)}
      (hd : (r.drain c maxRounds ws).1 = some waiting) := drain_slots maxRounds hr hd
  rcases hp : r.drain c maxRounds ws with ⟨_ | ws'', r'⟩
  all_goals rw [hp] at hs; simp only [drainAndClose, hp] at h ⊢
  · exact absurd (finishClose_pending h) (by simp)
  · obtain rfl := Closing.draining.inj (Progress.pending.inj h)
    rcases hs rfl with ⟨rfl, hslots⟩ | hin
    · have hslot := hr.unanswered (hw.database hmem) ho
      rw [slot?, hslots]
      exact hslot
    · exact hin d n hmem

/-- A closing task that waits on leaves what it waits for in the slots. -/
theorem connecting_of_pollClose (hr : r.Consistent) {stage : Closing} (hf : stage.Fits r)
    {ws : List (String × ConnectionId)}
    (h : (r.pollClose c stage).1 = .pending (.draining ws)) (hmem : (d, n) ∈ ws)
    (ho : r.outcome? n = none) : (r.pollClose c stage).2.slot? d = some (.connecting n) := by
  cases stage with
  | fresh => exact connecting_of_drainAndClose hr (awaits_inFlight hr) h hmem ho
  | draining ws => exact connecting_of_drainAndClose hr hf.2 h hmem ho
  | closing closes => exact absurd (finishClose_pending h) (by simp)

/-! ## Where lingering begins -/

/-- Only a launch brings an attempt into a slot, and that attempt is new. -/
theorem Move.connecting_back (hr : r.Consistent) (h : Move c r s) {e : String}
    (hd : r.database? n = some d) (hs : s.slot? e = some (.connecting n)) :
    r.slot? e = some (.connecting n) := by
  cases h with
  | drift world log => exact hs
  | query he => exact hs
  | launch he =>
    rw [slot?_launch] at hs
    split at hs
    -- the number of the new attempt is not one that was there
    · obtain rfl := Slot.connecting.inj (Option.some.inj hs)
      exact absurd (lt_length_of_database? hd) (Nat.lt_irrefl _)
    · exact hs
  | fulfil hn _ => exact hs
  | settle e' ho => exact (connecting_of_settle hs).1
  | take => exact ((slot?_take hr.names).mp hs).1
  | close d n => exact hs

theorem Moves.connecting_back (hr : r.Consistent) (h : Moves c r s) {e : String}
    (hd : r.database? n = some d) (hs : s.slot? e = some (.connecting n)) :
    r.slot? e = some (.connecting n) := by
  induction h with
  | refl => exact hs
  | tail hm h ih =>
      have hdb := Moves.grows hm |>.database hd
      exact ih (h.connecting_back (hr.moves hm) hdb hs)

/-- An attempt that had answered by then lingered by then. -/
theorem Lingers.back (hr : r.Consistent) (hm : Moves c r s) (h : s.Lingers d n f)
    (ho : r.outcome? n ≠ none) : r.Lingers d n f := by
  obtain ⟨o, ho⟩ := Option.ne_none_iff_exists'.mp ho
  obtain ⟨e, he⟩ := exists_database?_of_outcome? ho
  have hs := hm.connecting_back hr (attempts_eq_some.mp he).1 h.1
  have hf := hm.grows.outcome ho
  rw [h.2] at hf
  rw [← hf] at ho
  exact ⟨hs, ho⟩

end Registry

/-- A visit that leaves a failed attempt in its slot: a closing task sees it fail, while
another attempt of the same round has not answered. -/
structure Visit.LeavesFailed (c : Connector ω) (d : String) (n : ConnectionId) (f : Failure)
    (v : Visit ω) : Prop where
  closing : ∃ stage, v.task = .close stage
  before : v.registry.outcome? n = none
  failed : (v.after c).outcome? n = some (.error f)
  waits : ∃ ws, (v.task.poll c v.registry).1 = .pending (.close (.draining ws)) ∧
    (d, n) ∈ ws ∧ ∃ w ∈ ws, (v.after c).outcome? w.2 = none

theorem Task.lingers_poll (hv : r.Valid) {t : Task} (hf : t.Fits r)
    (h : (t.poll c r).2.Lingers d n f) :
    r.Lingers d n f ∨ Visit.LeavesFailed c d n f ⟨t, r⟩ := by
  have hback := h.back hv.consistent (t.poll_moves r)
  cases t with
  | acquire e stage =>
    rw [poll, lift_snd] at h
    exact .inl (Registry.pollAcquire_noneLingersAnew hv hf d n f h)
  | request kind req stage =>
    rw [poll, lift_snd] at h
    exact .inl (Registry.steady_noneLingersAnew.pollRequest hv kind hf d n f h)
  | close stage =>
    by_cases ho : r.outcome? n = none
    · have hl := h
      rw [poll, lift_snd] at hl
      rcases Registry.lingers_pollClose hv hf hl with hl | ⟨ws, hp, hws⟩
      · exact .inl hl
      · right
        refine ⟨⟨stage, rfl⟩, ho, h.2, ws, lift_of_pending hp, ?_⟩
        rwa [Visit.after, poll, lift_snd]
    -- it had failed before this poll, so it was in its slot before too
    · exact .inl (hback ho)

/-- So does what it saw fail. -/
theorem Visit.LeavesFailed.lingers {v : Visit ω} (h : v.LeavesFailed c d n f)
    (hv : v.registry.Valid) (hf : v.task.Fits v.registry) : (v.after c).Lingers d n f := by
  obtain ⟨⟨stage, ht⟩, ho, hfailed, ws, hp, hmem, -⟩ := h
  refine ⟨?_, hfailed⟩
  rw [ht] at hp hf
  rw [Visit.after, ht, Task.poll, Task.lift_snd]
  obtain ⟨k, hk, hnext⟩ := Task.lift_pending hp
  obtain rfl := Task.close.inj hnext
  exact Registry.connecting_of_pollClose hv.consistent hf hk hmem ho

namespace Machine

/-- Some poll of the run left the failed attempt in its slot. -/
def LeftFailed (c : Connector ω) (m : Machine ω) (actions : List (Action ω)) (d : String)
    (n : ConnectionId) (f : Failure) : Prop :=
  ∃ before id after t, actions = before ++ .poll id :: after ∧
    (m.run c before).task? id = some t ∧
    Visit.LeavesFailed c d n f ⟨t, (m.run c before).registry⟩

theorem LeftFailed.snoc {m : Machine ω} {actions : List (Action ω)}
    (h : m.LeftFailed c actions d n f) (a : Action ω) :
    m.LeftFailed c (actions ++ [a]) d n f := by
  obtain ⟨before, id, after, t, rfl, h⟩ := h
  exact ⟨before, id, after ++ [a], t, by simp, h⟩

/-- Whenever a failed attempt is found in its slot, a closing task has left it there. -/
theorem leftFailed_of_lingers {address : BaseAddress} {world : ω} {actions : List (Action ω)}
    (h : ((initial address world).run c actions).registry.Lingers d n f) :
    (initial address world).LeftFailed c actions d n f := by
  induction actions using List.reverseRecOn with
  | nil => simp [initial, Registry.initial, Registry.Lingers, Registry.slot?, Entries.get?] at h
  | append_singleton actions a ih =>
      rw [run_append, run_cons, run_nil] at h
      cases a with
      | start id job => exact (ih h).snoc _
      | drop id => exact (ih h).snoc _
      | change g => exact (ih h).snoc _
      | poll id =>
        have hv := run_valid c address world actions
        rcases ht : ((initial address world).run c actions).task? id with _ | t
        · rw [act, poll_of_none ht] at h
          exact (ih h).snoc _
        · rw [act, registry_poll ht] at h
          have hf := (run_fits c address world actions).task? ht
          rcases Task.lingers_poll hv hf h with hl | hl
          · exact (ih hl).snoc _
          · exact ⟨actions, id, [], t, rfl, ht, hl⟩

theorem lingers_of_leavesFailed {address : BaseAddress} {world : ω} {actions : List (Action ω)}
    {id : String} {t : Task} (ht : ((initial address world).run c actions).task? id = some t)
    (h : Visit.LeavesFailed c d n f ⟨t, ((initial address world).run c actions).registry⟩) :
    (((initial address world).run c actions).poll c id).2.registry.Lingers d n f := by
  rw [registry_poll ht]
  exact h.lingers (run_valid c address world actions) ((run_fits c address world actions).task? ht)

end Machine

end Gateway
