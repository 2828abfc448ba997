import Gateway.Proofs.Registry.Lingering
import Gateway.Proofs.Task.Acquire
import Gateway.Store.Memory

/-!
# Who connects afresh

A task that asks for a database after a connect call for it has failed gets what a later
connect call gives, unless the failed attempt still lingers in the slot. Then it joins that
attempt and gets the old failure at once, without a connect call, and the slot is free for
the next one.
-/

namespace Gateway

variable {ω : Type} {c : Connector ω} {r s : Registry ω} {d : String} {n : ConnectionId}
  {f : Failure}

/-- The result of a task that acquires is the outcome of an attempt after `n`. -/
def Afresh (c : Connector ω) (d : String) (n : ConnectionId) (visits : List (Visit ω))
    (result : Except Failure Outcome) : Prop :=
  ∃ k s o, n < k ∧ visits.getLast?.map (Visit.after c) = some s ∧ s.database? k = some d ∧
    s.outcome? k = some o ∧ result = o.map fun _ => .connection k

/-- A failed attempt that is not in the slot is behind the one that a task comes to. -/
theorem Registry.Consistent.lt_attempt (hr : r.Consistent) (hd : r.database? n = some d)
    (ho : r.outcome? n = some (.error f)) (hs : r.slot? d ≠ some (.connecting n)) :
    n < Acquiring.fresh.attempt d r := by
  rcases hslot : r.slot? d with _ | s
  · simp only [Acquiring.attempt, hslot]
    exact Registry.lt_length_of_database? hd
  · simp only [Acquiring.attempt, hslot]
    refine Nat.lt_of_le_of_ne (hr.latest hslot hd) ?_
    rintro rfl
    cases s with
    | connecting n => exact hs hslot
    | established n =>
      have hok := hr.established hslot
      rw [Slot.attempt, hok] at ho
      simp at ho

/-- A fresh task that finds an attempt with an outcome is ready, and settles the slot. -/
theorem Registry.pollAcquire_answered {o : Except Failure Unit}
    (hs : r.slot? d = some (.connecting n)) (ho : r.outcome? n = some o) :
    r.pollAcquire c d .fresh =
      (.ready (o.map fun _ => n), (r.say (fetchRecord d)).settle d n o) := by
  obtain ⟨e, he⟩ := Registry.exists_database?_of_outcome? ho
  have hslot : (r.say (Registry.fetchRecord d)).slot? d = some (.connecting n) := hs
  have hatt : (r.say (Registry.fetchRecord d)).attempts[n]? = some ⟨e, some o⟩ := he
  simp only [Registry.pollAcquire, hslot, Registry.await, Registry.advance, hatt]

theorem Acquired.afresh {visits : List (Visit ω)} {result : Except Failure Outcome}
    {v : Visit ω} {s : Registry ω} (h : Acquired c d visits result v s)
    (hd : v.registry.database? n = some d) (ho : v.registry.outcome? n = some (.error f))
    (hs : v.registry.slot? d ≠ some (.connecting n)) : Afresh c d n visits result := by
  obtain ⟨o, hout, hresult⟩ := h.outcome
  exact ⟨v.target d, s, o, h.valid.consistent.lt_attempt hd ho hs, h.last, h.database, hout,
    hresult⟩

/-- Who joins a failed attempt gets its failure at once and frees the slot. -/
theorem Acquired.of_lingers {visits : List (Visit ω)} {result : Except Failure Outcome}
    {v : Visit ω} {s : Registry ω} (h : Acquired c d visits result v s)
    (hl : v.registry.Lingers d n f) :
    visits = [v] ∧ result = .error f ∧ (v.after c).connectCalls = v.registry.connectCalls ∧
      (v.after c).slot? d = none := by
  obtain ⟨hs, ho⟩ := hl
  have htarget : v.target d = n := by
    simp only [Visit.target, Acquiring.attempt, hs]
    rfl
  have hafter : v.after c = (v.registry.say (Registry.fetchRecord d)).settle d n (.error f) := by
    rw [Visit.after, h.task, Task.poll, Task.lift_snd, Registry.pollAcquire_answered hs ho]
  obtain ⟨-, htrace, -⟩ :=
    Registry.settle_frame (v.registry.say (Registry.fetchRecord d)) d n (.error f)
  refine ⟨?_, ?_, ?_, ?_⟩
  · by_contra hne
    have hnone := h.waited hne
    rw [htarget, v.grows_after.outcome ho] at hnone
    simp at hnone
  · obtain ⟨o, hout, rfl⟩ := h.outcome
    rw [htarget, h.grows.outcome ho] at hout
    obtain rfl := Option.some.inj hout
    rfl
  · rw [hafter, Registry.connectCalls, htrace]
    rfl
  · have hs' : (v.registry.say (Registry.fetchRecord d)).slot? d = some (.connecting n) := hs
    rw [hafter, Registry.slot?_settle hs', if_pos rfl]
    rfl

/-- **Who gets an old failure.** A task whose first poll finds a failed attempt of its
database gets that failure, without a connect call, if the attempt is still in the slot;
otherwise what it gets comes from a later connect call. An attempt is only ever found there
after a poll that left it there: one of a closing task which saw it fail while another
attempt of its round had not answered. And each such poll does leave it there. -/
theorem acquire_afresh_unless_lingers (c : Connector ω) :
    (∀ (d : String) (visits : List (Visit ω)) (result : Except Failure Outcome) (v : Visit ω)
      (n : ConnectionId) (f : Failure),
      Completes c (.acquire d) visits result → visits.head? = some v →
        v.registry.database? n = some d → v.registry.outcome? n = some (.error f) →
          (v.registry.slot? d = some (.connecting n) →
            visits = [v] ∧ result = .error f ∧
              (v.after c).connectCalls = v.registry.connectCalls ∧
              (v.after c).slot? d = none) ∧
          (v.registry.slot? d ≠ some (.connecting n) → Afresh c d n visits result)) ∧
    ∀ (address : BaseAddress) (world : ω) (actions : List (Action ω)) (d : String)
      (n : ConnectionId) (f : Failure),
      let m := (Machine.initial address world).run c actions
      (m.registry.Lingers d n f → (Machine.initial address world).LeftFailed c actions d n f) ∧
        ∀ (id : String) (t : Task), m.task? id = some t →
          Visit.LeavesFailed c d n f ⟨t, m.registry⟩ →
            (m.poll c id).2.registry.Lingers d n f := by
  refine ⟨?_, ?_⟩
  · intro d visits result v n f h hhead hd ho
    obtain ⟨w, s, ha⟩ := h.acquired
    obtain rfl : w = v := Option.some.inj (ha.first.symm.trans hhead)
    exact ⟨fun hs => ha.of_lingers ⟨hs, ho⟩, ha.afresh hd ho⟩
  · intro address world actions d n f m
    exact ⟨Machine.leftFailed_of_lingers, fun _ _ => Machine.lingers_of_leavesFailed⟩

/-! ## A failure that is cached -/

/-- A closing task waits for two connect calls of which one fails. Then nothing fails any
more, and the database of the failed one is asked for again. -/
def failedWhileClosing : List (Action Store) :=
  [.change (Store.shutGate "connect:a"), .change (Store.shutGate "connect:b"),
    .start "1" (.acquire "a"), .poll "1", .start "2" (.acquire "b"), .poll "2",
    .start "3" .close, .poll "3",
    .change (Store.fail "connect:a" (.connect "a" "refused")),
    .change (Store.openGate "connect:a"), .poll "3",
    .change (Store.heal "connect:a"), .start "4" (.acquire "a")]

/-- The machine after that. -/
def healedMachine : Machine Store :=
  (Machine.initial ⟨"mongodb://localhost:27017/", []⟩ Store.empty).run Store.connector
    failedWhileClosing

/-- The only poll of the task that asks again. -/
def healedVisit : Visit Store := ⟨.acquire "a" .fresh, healedMachine.registry⟩

theorem healedVisit_completes :
    Completes Store.connector (.acquire "a") [healedVisit] (.error (.connect "a" "refused")) :=
  ⟨⟨"mongodb://localhost:27017/", []⟩, Store.empty, failedWhileClosing, [.poll "4"], "4",
    by rfl, by rfl⟩

/-- Not every task that asks for a database after a failure gets what a later connect
call gives. -/
theorem not_afresh_after_failure :
    ¬ ∀ (d : String) (visits : List (Visit Store)) (result : Except Failure Outcome)
      (v : Visit Store) (n : ConnectionId) (f : Failure),
      Completes Store.connector (.acquire d) visits result → visits.head? = some v →
        v.registry.database? n = some d → v.registry.outcome? n = some (.error f) →
          Afresh Store.connector d n visits result := by
  intro h
  obtain ⟨k, s, o, hk, hlast, hdb, -⟩ :=
    h "a" [healedVisit] _ healedVisit 0 _ healedVisit_completes rfl rfl rfl
  have hs : (healedVisit.after Store.connector).attempts =
      [⟨"a", some (.error (.connect "a" "refused"))⟩, ⟨"b", none⟩] := by rfl
  obtain rfl : healedVisit.after Store.connector = s := Option.some.inj hlast
  simp only [Registry.database?, hs] at hdb
  rcases k with _ | _ | k
  · exact Nat.lt_irrefl 0 hk
  · simp at hdb
  · simp at hdb

/-- A connect call fails and is settled by the task that waits for it. -/
def failedAlone : List (Action Store) :=
  [.change (Store.fail "connect:a" (.connect "a" "refused")), .start "1" (.acquire "a"),
    .poll "1", .change (Store.heal "connect:a"), .start "2" (.acquire "a")]

/-- The only poll of the task that asks again after that. -/
def retryVisit : Visit Store :=
  ⟨.acquire "a" .fresh, ((Machine.initial ⟨"mongodb://localhost:27017/", []⟩ Store.empty).run
    Store.connector failedAlone).registry⟩

theorem retryVisit_completes :
    Completes Store.connector (.acquire "a") [retryVisit] (.ok (.connection 1)) :=
  ⟨⟨"mongodb://localhost:27017/", []⟩, Store.empty, failedAlone, [.poll "2"], "2",
    by rfl, by rfl⟩

/-- The failed attempt is joined after the first run, where it was left by a poll of the
closing task, and not after the second. -/
theorem acquire_after_failed_runs :
    (healedVisit.after Store.connector).slot? "a" = none ∧
      (Machine.initial ⟨"mongodb://localhost:27017/", []⟩ Store.empty).LeftFailed
        Store.connector failedWhileClosing "a" 0 (.connect "a" "refused") ∧
      Afresh Store.connector "a" 0 [retryVisit] (.ok (.connection 1)) := by
  have hjoined := (acquire_afresh_unless_lingers Store.connector).1 "a" [healedVisit] _
    healedVisit 0 _ healedVisit_completes rfl rfl rfl
  have hretried := (acquire_afresh_unless_lingers Store.connector).1 "a" [retryVisit] _
    retryVisit 0 (.connect "a" "refused") retryVisit_completes rfl rfl rfl
  obtain ⟨-, -, -, hfree⟩ := hjoined.1 rfl
  exact ⟨hfree,
    ((acquire_afresh_unless_lingers Store.connector).2 _ _ failedWhileClosing "a" 0 _).1
      ⟨rfl, rfl⟩,
    hretried.2 (by decide)⟩

end Gateway
