import Gateway.Proofs.Registry.Lingering
import Gateway.Proofs.Registry.Rounds
import Gateway.Proofs.Task.Lives
import Gateway.Store.Memory

/-!
# Closing tasks do not spin

Between two polls of a closing task others may launch as many attempts as they like, so how
long it drains is up to them. One poll is not: it goes through the round that the task waited
in and one more at most, whatever the connector answers, and ends with an attempt that has not
answered or with the connections taken (`Machine.draining_ends`).

The second round needs a reason. A task is put to wait by a poll that leaves just the attempts
of its round in flight (`WaitsSince.inFlight_eq`), so what it finds beside them when the round is
over was launched while it waited.
-/

namespace Gateway

variable {ω : Type} {c : Connector ω}

namespace Registry

variable {r s : Registry ω} {d : String} {n : ConnectionId}

/-- Between one registry and a later one an attempt for a database was launched. -/
def Launched (r s : Registry ω) (d : String) (n : ConnectionId) : Prop :=
  r.database? n = none ∧ s.database? n = some d

/-- An attempt that is in flight and was not before has been launched since. -/
theorem launched_of_connecting (hr : r.Consistent) (h : Moves c r s)
    (hs : s.slot? d = some (.connecting n)) (hnew : (d, n) ∉ r.inFlight) :
    r.Launched s d n := by
  refine ⟨?_, (hr.moves h).database hs⟩
  by_contra hold
  obtain ⟨e, he⟩ := Option.ne_none_iff_exists'.mp hold
  exact hnew ((mem_inFlight hr).mpr (h.connecting_back hr he hs))

end Registry

namespace Machine

open Registry

variable {m : Machine ω} {id : String} {ws : List (String × ConnectionId)}
  {before after actions : List (Action ω)} {address : BaseAddress} {world : ω}

/-! ## Waiting in a round -/

/-- The poll that follows `before` puts the closing task of a name to wait for some attempts,
and the task waits for them all through `after`. -/
structure WaitsSince (c : Connector ω) (m : Machine ω) (id : String)
    (ws : List (String × ConnectionId)) (before after : List (Action ω)) : Prop where
  begun : ∃ stage, (m.run c before).task? id = some (.close stage) ∧ stage ≠ .draining ws
  since : ∀ between, between <+: after →
    (m.run c (before ++ .poll id :: between)).task? id = some (.close (.draining ws))

theorem WaitsSince.snoc (h : m.WaitsSince c id ws before after) {a : Action ω}
    (ht : (m.run c (before ++ .poll id :: (after ++ [a]))).task? id =
      some (.close (.draining ws))) : m.WaitsSince c id ws before (after ++ [a]) := by
  refine ⟨h.begun, ?_⟩
  intro between hbetween
  rcases List.prefix_concat_iff.mp hbetween with rfl | hbetween
  · exact ht
  · exact h.since between hbetween

/-- A task that was polled before and is found after a poll by its name is the one polled. -/
theorem pending_of_poll (hq : m.Queued) {t u : Task} (ht : m.task? id = some t)
    (hu : (m.poll c id).2.task? id = some u) (hpolled : ∀ job, u ≠ .ofJob job) :
    (t.poll c m.registry).1 = .pending u := by
  rcases hp : (t.poll c m.registry).1 with next | result
  · rw [task?_poll_self ht hp] at hu
    rw [Option.some.inj hu]
  · obtain ⟨job, rfl⟩ := hq.behind ht hp hu
    exact absurd rfl (hpolled job)

theorem draining_ne_ofJob (ws : List (String × ConnectionId)) (job : Job) :
    Task.close (.draining ws) ≠ .ofJob job := by
  cases job <;> simp [Task.ofJob]

/-- A task that waits in a round was put there by one of its polls. -/
theorem exists_waitsSince
    (ht : ((initial address world).run c actions).task? id = some (.close (.draining ws))) :
    ∃ before after, actions = before ++ .poll id :: after ∧
      (initial address world).WaitsSince c id ws before after := by
  -- the last action leaves the task as it was, or is the poll that puts it to wait
  induction actions using List.reverseRecOn with
  | nil => simp [initial, task?, Entries.get?] at ht
  | append_singleton actions a ih =>
      have hsnoc
          (hprev : ((initial address world).run c actions).task? id =
            some (.close (.draining ws))) :
          ∃ before after, actions ++ [a] = before ++ .poll id :: after ∧
            (initial address world).WaitsSince c id ws before after := by
        obtain ⟨before, after, rfl, hw⟩ := ih hprev
        exact ⟨before, after ++ [a], by simp, hw.snoc (by simpa using ht)⟩
      have hnow := ht
      rw [run_append, run_cons, run_nil] at hnow
      cases a with
      | start other job =>
        rcases hprev : ((initial address world).run c actions).task? id with _ | t
        · obtain ⟨-, hfresh⟩ := task?_start_of_none hprev hnow
          exact absurd hfresh (draining_ne_ofJob ws job)
        · rw [act, task?_start hprev] at hnow
          exact hsnoc (hprev.trans hnow)
      | change f => exact hsnoc hnow
      | drop other =>
        by_cases ho : other = id
        · simp [act, drop, task?, ho] at hnow
        · rw [act, task?_drop_of_ne ho] at hnow
          exact hsnoc hnow
      | poll other =>
        by_cases ho : other = id
        · subst ho
          rcases hprev : ((initial address world).run c actions).task? other with _ | t
          · rw [act, poll_of_none hprev, hprev] at hnow
            simp at hnow
          · have hq := run_queued c address world actions
            have hp := pending_of_poll hq hprev hnow (draining_ne_ofJob ws)
            cases t with
            | acquire d stage =>
              obtain ⟨_, -, hnext⟩ := Task.lift_pending hp
              simp at hnext
            | request kind req stage =>
              obtain ⟨_, -, hnext⟩ := Task.lift_pending hp
              simp at hnext
            | close stage =>
              by_cases hstage : stage = .draining ws
              · exact hsnoc (hstage ▸ hprev)
              -- the wait begins with this poll
              · refine ⟨actions, [], rfl, ⟨stage, hprev, hstage⟩, ?_⟩
                intro between hbetween
                rw [List.prefix_nil.mp hbetween]
                exact ht
        · rw [act, task?_poll_of_ne ho] at hnow
          exact hsnoc hnow

/-- When a wait begins, just the attempts that it is for are in flight. -/
theorem WaitsSince.inFlight_eq (h : (initial address world).WaitsSince c id ws before after) :
    ((initial address world).run c (before ++ [.poll id])).registry.inFlight = ws := by
  have hv := run_valid c address world before
  have hq := run_queued c address world before
  obtain ⟨stage, ht, hne⟩ := h.begun
  have hf := (run_fits c address world before).task? ht
  have hbegun := h.since [] List.nil_prefix
  rw [run_append, run_cons, run_nil] at hbegun ⊢
  obtain ⟨next, hp, hnext⟩ :=
    Task.lift_pending (pending_of_poll hq ht hbegun (draining_ne_ofJob ws))
  obtain rfl := Task.close.inj hnext
  rw [act, registry_poll ht, Task.poll, Task.lift_snd]
  exact inFlight_of_pollClose hv.consistent hf hp hne

/-! ## One poll -/

theorem poll_pending {t next : Task} (h : m.task? id = some t)
    (hp : (t.poll c m.registry).1 = .pending next) : (m.poll c id).1 = .pending := by
  obtain ⟨before, after, -, -, hpoll⟩ := poll_of_some c h
  rw [hpoll]
  rcases ht : t.poll c m.registry with ⟨next' | result, r⟩
  · rfl
  · simp [ht] at hp

/-- A poll by a name finishes its rounds but for the last, in which it leaves the closing task
waiting for an attempt that has not answered. -/
def LeavesWaiting (c : Connector ω) (m : Machine ω) (id : String) (rounds : List (Round ω)) :
    Prop :=
  ∃ finished round, rounds = finished ++ [round] ∧ (∀ other ∈ finished, other.Over) ∧
    (m.poll c id).1 = .pending ∧
    (m.poll c id).2.task? id = some (.close (.draining round.waiting)) ∧
    ∃ w ∈ round.waiting, (m.poll c id).2.registry.outcome? w.2 = none

/-- A poll by a name finishes its rounds, finds no attempt in flight, and takes the
connections. -/
def TakesAfter (c : Connector ω) (m : Machine ω) (id : String) (rounds : List (Round ω)) : Prop :=
  (∀ round ∈ rounds, round.Over) ∧ (m.registry.afterRounds rounds).inFlight = [] ∧
    ∃ taken started, m.registry.Takes (m.poll c id).2.registry taken started

/-- **The drain loop ends.** A poll of a closing task, at any moment of any run, goes through
finitely many rounds of draining: the one that the task waited in, if any, and one more at
most. Each that is over leaves none of its attempts in flight. The poll ends with an attempt
that has not answered, or finds none in flight and takes the connections. A round after the
one that the task waited in is only for attempts that were launched during that wait. -/
theorem draining_ends (c : Connector ω) (address : BaseAddress) (world : ω)
    (actions : List (Action ω)) (id : String) (stage : Closing) :
    let m := (initial address world).run c actions
    m.task? id = some (.close stage) →
      ∃ waited further : List (Round ω),
        (∀ rounds p, ClosePoll c stage m.registry rounds p ↔
          rounds = waited ++ further ∧ p = m.registry.pollClose c stage) ∧
        waited.map Round.waiting = stage.round?.toList ∧ further.length ≤ 1 ∧
        (∀ round ∈ waited ++ further, round.Over → round.Clears) ∧
        (stage.Drains → m.LeavesWaiting c id (waited ++ further) ∨
          m.TakesAfter c id (waited ++ further)) ∧
        ∀ ws, stage = .draining ws → ∃ before after, actions = before ++ .poll id :: after ∧
          (initial address world).WaitsSince c id ws before after ∧
          ∀ round ∈ further, ∀ d n, (d, n) ∈ round.waiting →
            ((initial address world).run c (before ++ [.poll id])).registry.Launched
              m.registry d n := by
  intro m ht
  have hv : m.registry.Valid := run_valid c address world actions
  have hf := (run_fits c address world actions).task? ht
  obtain ⟨waited, further, hpoll, hwaited, hlen, hnew⟩ :=
    exists_closePoll (c := c) hv.consistent hf
  have hafter : (m.poll c id).2.registry = (m.registry.pollClose c stage).2 := by
    rw [registry_poll ht, Task.poll, Task.lift_snd]
  refine ⟨waited, further, ?_, hwaited, hlen, hpoll.clears hv.consistent hf, ?_, ?_⟩
  · intro rounds p
    constructor
    · exact fun h => h.unique hpoll
    · rintro ⟨rfl, rfl⟩
      exact hpoll
  · intro hs
    rcases hpoll.ends rfl hv hf hs with ⟨finished, round, hrounds, hover, hp, hnone⟩ | htakes
    · have hpending := Task.lift_of_pending (f := .close) (g := fun _ => .closed) hp
      rw [← hafter] at hnone
      exact .inl ⟨finished, round, hrounds, hover, poll_pending ht hpending,
        task?_poll_self ht hpending, hnone⟩
    · rw [← hafter] at htakes
      exact .inr htakes
  · rintro ws rfl
    obtain ⟨before, after, hactions, hwaits⟩ := exists_waitsSince ht
    refine ⟨before, after, hactions, hwaits, ?_⟩
    intro round hmem d n hdn
    obtain ⟨hs, hnotMem⟩ := hnew ws rfl round hmem d n hdn
    have hm : Moves c ((initial address world).run c (before ++ [.poll id])).registry
        m.registry := by
      have hrun : m = ((initial address world).run c (before ++ [.poll id])).run c after := by
        rw [← run_append, List.append_assoc, List.singleton_append, ← hactions]
      rw [hrun]
      exact run_moves _ after
    have hbegun := run_valid c address world (before ++ [.poll id])
    rw [← hwaits.inFlight_eq] at hnotMem
    exact launched_of_connecting hbegun.consistent hm hs hnotMem

end Machine

/-! ## A further round -/

/-- While a closing task waits for one connect call another one is started, and then the first
may answer. -/
def launchedWhileDraining : List (Action Store) :=
  [.change (Store.shutGate "connect:a"), .change (Store.shutGate "connect:b"),
    .start "1" (.acquire "a"), .poll "1", .start "2" .close, .poll "2",
    .start "3" (.acquire "b"), .poll "3", .change (Store.openGate "connect:a")]

/-- The machine after that. -/
def launchedMachine : Machine Store :=
  (Machine.initial ⟨"mongodb://localhost:27017/", []⟩ Store.empty).run Store.connector
    launchedWhileDraining

/-- The next poll of the closing task finishes its round and waits in another one, for the
attempt that was launched during the first. -/
theorem launchedMachine_draining_ends :
    launchedMachine.task? "2" = some (.close (.draining [("a", 0)])) ∧
      ∃ first second : Round Store,
        Registry.ClosePoll Store.connector (.draining [("a", 0)]) launchedMachine.registry
            [first, second]
            (launchedMachine.registry.pollClose Store.connector (.draining [("a", 0)])) ∧
          first.Clears ∧ second.waiting = [("b", 1)] ∧
          ∃ before after, launchedWhileDraining = before ++ .poll "2" :: after ∧
            ((Machine.initial ⟨"mongodb://localhost:27017/", []⟩ Store.empty).run Store.connector
              (before ++ [.poll "2"])).registry.Launched launchedMachine.registry "b" 1 := by
  have htask : launchedMachine.task? "2" = some (.close (.draining [("a", 0)])) := by rfl
  have hthen : (launchedMachine.poll Store.connector "2").2.task? "2" =
      some (.close (.draining [("b", 1)])) := by rfl
  have hslots : (launchedMachine.poll Store.connector "2").2.registry.slots =
      [("a", .established 0), ("b", .connecting 1)] := by rfl
  obtain ⟨waited, further, hpoll, hwaited, hlen, hclears, hends, hwait⟩ :=
    Machine.draining_ends Store.connector _ _ launchedWhileDraining "2" _ htask
  refine ⟨htask, ?_⟩
  rcases hends trivial with ⟨finished, round, hrounds, hover, -, hnext, -⟩ | ⟨-, -, _, _, htakes⟩
  · have hround : round.waiting = [("b", 1)] := by
      have hsame := hnext.symm.trans hthen
      exact Closing.draining.inj (Task.close.inj (Option.some.inj hsame))
    obtain ⟨first, rfl, hfirst⟩ := List.map_eq_singleton_iff.mp hwaited
    obtain ⟨before, after, hactions, -, hlaunched⟩ := hwait _ rfl
    match further, hlen with
    | [], _ =>
      -- the round that it waited in cannot be the one that it waits in now
      have halone : [] ++ [first] = finished ++ [round] := hrounds
      obtain ⟨-, hlast⟩ := List.append_inj' halone rfl
      obtain rfl := List.singleton_inj.mp hlast
      rw [hfirst] at hround
      simp at hround
    | [second], _ =>
      obtain ⟨rfl, hlast⟩ := List.append_inj' hrounds rfl
      obtain rfl := List.singleton_inj.mp hlast
      have hfirstOver := hover first (List.mem_singleton.mpr rfl)
      refine ⟨first, second, (hpoll _ _).mpr ⟨rfl, rfl⟩,
        hclears first List.mem_cons_self hfirstOver, hround, before, after, hactions, ?_⟩
      exact hlaunched second (List.mem_singleton.mpr rfl) "b" 1 (by simp [hround])
  · exact absurd (hslots.symm.trans htakes.slots) (by simp)

end Gateway
