import Gateway.Proofs.Task.Owed
import Gateway.Proofs.Task.Runs

/-!
# What a closing task achieves

A closing task that comes to its end has left nothing behind of what there was when it
began. Its visits are of three kinds, in this order: those that only drain; one that takes
all connections and makes the first of their close calls; and those that only go on with these
calls. At the one in the middle no attempt is in flight and no slot is left, so every attempt of
before has answered and every connection that came of one is taken, by this task or by another
one that closes at the same time.

What is asked of the connector is read off the visits by a record (`Visit.asked`), and the result
of the task is made of the answers in it and nothing else.
-/

namespace Gateway

open Registry

variable {ω : Type} {c : Connector ω} {r s : Registry ω}

/-- A visit that starts no call. -/
def Visit.Quiet (c : Connector ω) (v : Visit ω) : Prop := (v.after c).trace = v.registry.trace

/-- The calls that a visit starts. -/
def Visit.started (c : Connector ω) (v : Visit ω) : List Event :=
  (v.after c).trace.drop v.registry.trace.length

/-- The close calls that a visit asks, each with the answer if there is one. -/
def Visit.asked (c : Connector ω) (v : Visit ω) : List CloseCall :=
  (v.task.poll c.recorded (v.registry.recording [])).2.world.2

/-- The answers of close calls that a visit hears. -/
def Visit.heard (c : Connector ω) (v : Visit ω) : CloseAnswers := heardFrom (v.asked c)

theorem Visit.started_of_trace {v : Visit ω} {events : List Event}
    (h : (v.after c).trace = v.registry.trace ++ events) : v.started c = events := by
  rw [started, h, List.drop_left]

theorem Visit.quiet_iff {v : Visit ω} : v.Quiet c ↔ v.started c = [] := by
  obtain ⟨events, htrace⟩ := (v.task.poll_moves (c := c) v.registry).grows.trace
  have htrace : (v.after c).trace = v.registry.trace ++ events := htrace.symm
  rw [Quiet, started_of_trace htrace, htrace, List.append_right_eq_self]

theorem Visit.after_close (stage : Closing) (r : Registry ω) :
    Visit.after c ⟨.close stage, r⟩ = (r.pollClose c stage).2 := by
  rw [Visit.after, Task.poll, Task.lift_snd]

/-- A visit asks what the recorded poll writes down. -/
theorem Visit.asked_close {stage : Closing} {asked : List CloseCall}
    {p : Progress Closing (Except Failure Unit)}
    (h : (r.recording []).pollClose c.recorded stage = (p, s.recording asked)) :
    Visit.asked c ⟨.close stage, r⟩ = asked := by
  rw [Visit.asked, Task.poll, Task.lift_snd, h]
  rfl

/-! ## The visits so far -/

/-- With the visits so far a closing task has taken the connections of these close calls and
brought the calls to where they stand. -/
structure Took (c : Connector ω) (visits : List (Visit ω)) (closes : Closes)
    (r : Registry ω) : Prop where
  taking : ∃ before u after started, visits = before ++ u :: after ∧
    (∀ w ∈ before, w.Quiet c) ∧
    u.registry.Takes (u.after c) closes.targets started ∧
    (u.after c).Valid ∧ (u.after c).Grows r ∧
    ∀ v, visits.head? = some v → v.registry.Valid ∧ v.registry.Grows (u.after c)
  advances : ∃ started, visits.flatMap (Visit.started c) = closeEvents started ∧
    (⟨[], closes.targets⟩ : Closes).Advances (visits.flatMap (Visit.asked c)) started closes ∧
    started ⊆ r.closings

/-- With the visits so far a closing task has only drained. -/
structure OnlyDrained (c : Connector ω) (visits : List (Visit ω)) (r : Registry ω) : Prop where
  quiet : ∀ w ∈ visits, w.Quiet c
  asked : visits.flatMap (Visit.asked c) = []
  begun : ∀ v, visits.head? = some v → v.registry.Valid ∧ v.registry.Grows r

/-- Where a closing task stands after the visits so far. -/
def Closing.Stands (c : Connector ω) (visits : List (Visit ω)) (r : Registry ω) : Closing → Prop
  | .fresh => OnlyDrained c visits r
  | .draining _ => OnlyDrained c visits r
  | .closing closes => Took c visits closes r

theorem Registry.Grows.closings (h : r.Grows s) : r.closings ⊆ s.closings :=
  ((h.trace.filterMap Event.close?).map Prod.swap).subset

theorem Took.grows {visits : List (Visit ω)} {closes : Closes} (h : Took c visits closes r)
    (hg : r.Grows s) : Took c visits closes s := by
  obtain ⟨before, u, after, started, hvisits, hquiet, htakes, hvalid, hr, hhead⟩ := h.taking
  obtain ⟨begun, hstarted, hadv, hclosings⟩ := h.advances
  exact ⟨⟨before, u, after, started, hvisits, hquiet, htakes, hvalid, hr.trans hg, hhead⟩,
    begun, hstarted, hadv, List.Subset.trans hclosings hg.closings⟩

theorem OnlyDrained.grows {visits : List (Visit ω)} (h : OnlyDrained c visits r)
    (hg : r.Grows s) : OnlyDrained c visits s :=
  ⟨h.quiet, h.asked, fun v hv => ⟨(h.begun v hv).1, (h.begun v hv).2.trans hg⟩⟩

theorem Closing.Stands.grows {visits : List (Visit ω)} {stage : Closing}
    (h : stage.Stands c visits r) (hg : r.Grows s) : stage.Stands c visits s := by
  cases stage with
  | fresh => exact OnlyDrained.grows h hg
  | draining ws => exact OnlyDrained.grows h hg
  | closing closes => exact Took.grows h hg

/-! ## One visit more -/

section Visit

variable {visits : List (Visit ω)}

theorem flatMap_started_of_quiet (h : ∀ w ∈ visits, w.Quiet c) :
    visits.flatMap (Visit.started c) = [] :=
  List.flatMap_eq_nil_iff.mpr fun w hw => Visit.quiet_iff.mp (h w hw)

/-- The visit that a task was visited with first, when it is visited again. -/
theorem OnlyDrained.first (h : OnlyDrained c visits r) (hv : r.Valid) (t : Task) {v : Visit ω}
    (hhead : (visits ++ [(⟨t, r⟩ : Visit ω)]).head? = some v) :
    v.registry.Valid ∧ v.registry.Grows r := by
  rcases visits with _ | ⟨w, visits⟩
  · obtain rfl := Option.some.inj hhead
    exact ⟨hv, .refl r⟩
  · exact h.begun v hhead

theorem OnlyDrained.visit (h : OnlyDrained c visits r) (hv : r.Valid) {stage : Closing}
    (hf : stage.Fits r) (hs : stage.Drains) :
    (∃ ws, (r.pollClose c stage).1 = .pending (.draining ws) ∧
      OnlyDrained c (visits ++ [⟨.close stage, r⟩]) (r.pollClose c stage).2) ∨
    ∃ closes, (r.pollClose c stage).1 = (r.finishClose closes).1 ∧
      Took c (visits ++ [⟨.close stage, r⟩]) closes (r.pollClose c stage).2 := by
  have hg := (pollClose_moves (c := c) stage r).grows
  have hafter := Visit.after_close (c := c) stage r
  rcases pollClose_cases (c := c) hv hf hs with
    ⟨ws, hp, -, htrace, hrec⟩ | ⟨taken, asked, started, closes, hp, ht, hadv, hrec⟩
  · rw [← hafter] at htrace
    have hasked := Visit.asked_close hrec
    refine .inl ⟨ws, hp, ?_, ?_, ?_⟩
    · intro w hmem
      rcases List.mem_append.mp hmem with hmem | hmem
      · exact h.quiet w hmem
      · obtain rfl := List.mem_singleton.mp hmem
        exact htrace
    · rw [List.flatMap_append, h.asked, List.flatMap_singleton, hasked, List.nil_append]
    · intro v hhead
      obtain ⟨hvalid, hgrows⟩ := h.first hv _ hhead
      exact ⟨hvalid, hgrows.trans hg⟩
  · have hclosings := closings_of_trace ht.trace
    rw [← hafter] at ht
    have hasked := Visit.asked_close hrec
    obtain rfl : closes.targets = taken := hadv.targets
    refine .inr ⟨closes, hp, ⟨visits, _, [], started, rfl, h.quiet, ht, ?_, ?_, ?_⟩,
      started, ?_, ?_, ?_⟩
    · rw [hafter]
      exact hv.moves (pollClose_moves stage r)
    · rw [hafter]
      exact .refl _
    · intro v hhead
      obtain ⟨hvalid, hgrows⟩ := h.first hv _ hhead
      rw [hafter]
      exact ⟨hvalid, hgrows.trans hg⟩
    · rw [List.flatMap_append, flatMap_started_of_quiet h.quiet, List.flatMap_singleton,
        List.nil_append]
      exact Visit.started_of_trace ht.trace
    · rw [List.flatMap_append, h.asked, List.flatMap_singleton, hasked, List.nil_append]
      exact hadv
    · rw [hclosings]
      exact List.subset_append_right _ _

theorem Took.visit {closes : Closes} (h : Took c visits closes r) :
    ∃ closes', (r.pollClose c (.closing closes)).1 = (r.finishClose closes').1 ∧
      Took c (visits ++ [⟨.close (.closing closes), r⟩]) closes'
        (r.pollClose c (.closing closes)).2 := by
  have hg := (pollClose_moves (c := c) (.closing closes) r).grows
  obtain ⟨asked, started, closes', hasks, hrec⟩ := goOnClosing_asks (c := c) closes r
  obtain ⟨world, log, hleft⟩ := hasks.left
  have hasked : Visit.asked c ⟨.close (.closing closes), r⟩ = asked := Visit.asked_close hrec
  have hafter : (r.pollClose c (.closing closes)).2.trace = r.trace ++ closeEvents started := by
    rw [pollClose, hleft]
  have hstarted : Visit.started c ⟨.close (.closing closes), r⟩ = closeEvents started := by
    refine Visit.started_of_trace ?_
    rw [Visit.after_close]
    exact hafter
  obtain ⟨before, u, after, first, rfl, hquiet, htakes, hvalid, hr, hhead⟩ := h.taking
  obtain ⟨begun, hbegun, hadv, hclosings⟩ := h.advances
  have htargets : closes'.targets = closes.targets := hasks.advances.targets
  refine ⟨closes', hasks.told, ⟨before, u, after ++ [⟨.close (.closing closes), r⟩], first,
    by simp, hquiet, ?_, hvalid, hr.trans hg, ?_⟩, begun ++ started, ?_, ?_, ?_⟩
  · rw [htargets]
    exact htakes
  · intro v hv
    refine hhead v ?_
    cases before <;> exact hv
  · rw [List.flatMap_append, hbegun, List.flatMap_singleton, hstarted, closeEvents, closeEvents,
      closeEvents, List.map_append]
  · rw [htargets, List.flatMap_append, List.flatMap_singleton, hasked]
    exact hadv.trans hasks.advances
  · rw [closings_of_trace hafter]
    exact List.append_subset.mpr ⟨List.Subset.trans hclosings (List.subset_append_left _ _),
      List.subset_append_right _ _⟩

/-- A visit goes on draining, or it has taken the connections by its end. -/
theorem Closing.Stands.visit {stage : Closing} (hv : r.Valid) (hf : stage.Fits r)
    (h : stage.Stands c visits r) :
    (∃ ws, (r.pollClose c stage).1 = .pending (.draining ws) ∧
      OnlyDrained c (visits ++ [⟨.close stage, r⟩]) (r.pollClose c stage).2) ∨
    ∃ closes, (r.pollClose c stage).1 = (r.finishClose closes).1 ∧
      Took c (visits ++ [⟨.close stage, r⟩]) closes (r.pollClose c stage).2 := by
  cases stage with
  | fresh => exact OnlyDrained.visit h hv hf trivial
  | draining ws => exact OnlyDrained.visit h hv hf trivial
  | closing closes => exact .inr (Took.visit h)

end Visit

/-! ## The whole life -/

/-- A close call and what it answered. -/
structure AnsweredClose where
  database : String
  connection : ConnectionId
  answer : Except Failure Unit

namespace AnsweredClose

/-- The failure to close that an answer tells of. -/
def failure? (call : AnsweredClose) : Option CloseFailure :=
  match call.answer with
  | .ok _ => none
  | .error f => some ⟨call.database, f.text⟩

/-- The failures of calls, in the order of the calls. -/
def failures (calls : List AnsweredClose) : List CloseFailure := calls.filterMap failure?

/-- What a closing task ends with when its calls have answered. -/
def result (calls : List AnsweredClose) : Except Failure Outcome :=
  if failures calls = [] then .ok .closed else .error (.close calls.length (failures calls))

/-- The connections of calls, behind their databases. -/
def targets (calls : List AnsweredClose) : List (String × ConnectionId) :=
  calls.map fun call => (call.database, call.connection)

/-- As the closing task has it. -/
def toCall (call : AnsweredClose) : CloseCall :=
  ⟨call.database, call.connection, some call.answer⟩

theorem targets_map (calls : List AnsweredClose) :
    (⟨calls.map toCall, []⟩ : Closes).targets = targets calls := by
  rw [Closes.targets, List.append_nil, List.map_map]
  rfl

theorem exists_of_isSome {calls : List CloseCall} (h : ∀ call ∈ calls, call.answer.isSome) :
    ∃ answered : List AnsweredClose, calls = answered.map toCall := by
  induction calls with
  | nil => exact ⟨[], rfl⟩
  | cons call calls ih =>
      obtain ⟨answered, hanswered⟩ := ih fun k hk => h k (List.mem_cons_of_mem call hk)
      obtain ⟨a, ha⟩ := Option.isSome_iff_exists.mp (h call List.mem_cons_self)
      refine ⟨⟨call.database, call.connection, a⟩ :: answered, ?_⟩
      rw [List.map_cons, ← hanswered, toCall, ← ha]

theorem heardFrom_map (calls : List AnsweredClose) :
    heardFrom (calls.map toCall) = calls.map fun call => (call.connection, call.answer) := by
  induction calls with
  | nil => rfl
  | cons call calls ih =>
      rw [List.map_cons, List.map_cons, ← ih]
      rfl

theorem closeFailures_map (calls : List AnsweredClose) :
    closeFailures (calls.map toCall) = failures calls := by
  rw [closeFailures, failures, List.filterMap_map]
  congr 1
  funext call
  obtain ⟨d, n, _ | _⟩ := call <;> rfl

/-- The failures are those of some of the calls, in their order. -/
theorem failures_sublist (calls : List AnsweredClose) :
    ((failures calls).map CloseFailure.database).Sublist (calls.map AnsweredClose.database) := by
  induction calls with
  | nil => exact .slnil
  | cons call calls ih =>
      obtain ⟨d, n, f | _⟩ := call
      · exact ih.cons_cons d
      · exact ih.cons d

/-- The task ends with the result of its calls. -/
theorem result_of_ready {calls : List AnsweredClose} {x : Except Failure Unit}
    (h : (r.finishClose ⟨calls.map toCall, []⟩).1 = .ready x) :
    x.map (fun _ => Outcome.closed) = result calls := by
  obtain ⟨-, -, rfl⟩ := finishClose_ready h
  simp only [closeFailures_map, List.length_map, result, List.isEmpty_iff]
  split <;> rfl

end AnsweredClose

/-- A closing task with these visits and this result, of which the first is `v` and the last
leaves the registry `s`, has left nothing behind, and has told what its calls answered. -/
structure ShutDown (c : Connector ω) (visits : List (Visit ω)) (result : Except Failure Outcome)
    (v : Visit ω) (s : Registry ω) (calls : List AnsweredClose) : Prop where
  first : visits.head? = some v
  last : visits.getLast?.map (Visit.after c) = some s
  /-- The attempts that there were have answered. -/
  answered : ∀ {d : String} {n : ConnectionId},
    v.registry.database? n = some d → s.outcome? n ≠ none
  /-- The connections that were held or came of an attempt that was, have been taken since. -/
  taken : ∀ {d : String} {n : ConnectionId},
    v.registry.Holds d n → s.Opened d n → n ∈ s.taken ∧ n ∉ v.registry.taken
  /-- They have been closed since too, if not another task took them together with many others. -/
  closed : ∀ {d : String} {n : ConnectionId},
    v.registry.Holds d n → s.Opened d n → n ∉ v.registry.closed ∧
      (n ∈ s.closed ∨ ∃ batch ∈ s.takes, batch ≠ AnsweredClose.targets calls ∧
        togetherBound < batch.length ∧ (d, n) ∈ batch)
  /-- One visit takes the connections, no visit before it starts any call, and if they are not
  many no visit after it does. -/
  takes : ∃ before u after started, visits = before ++ u :: after ∧ (∀ w ∈ before, w.Quiet c) ∧
    u.registry.Takes (u.after c) (AnsweredClose.targets calls) started ∧
    (calls.length ≤ togetherBound → ∀ w ∈ after, w.Quiet c)
  /-- Every call is started, in the order of names, and no other. -/
  starts : visits.flatMap (Visit.started c) = closeEvents (AnsweredClose.targets calls)
  /-- None is asked a second time before all are started. -/
  asked : ∃ again, (visits.flatMap (Visit.asked c)).map CloseCall.target =
    AnsweredClose.targets calls ++ again ∧ again ⊆ AnsweredClose.targets calls
  /-- Each call has answered once. -/
  heard : (visits.flatMap (Visit.heard c)).Perm
    (calls.map fun call => (call.connection, call.answer))
  result_eq : result = AnsweredClose.result calls
  /-- Each failure is told once, in the order of names. -/
  ascending : ((AnsweredClose.failures calls).map CloseFailure.database).Pairwise (· < ·)

theorem flatMap_heard (visits : List (Visit ω)) :
    visits.flatMap (Visit.heard c) = heardFrom (visits.flatMap (Visit.asked c)) := by
  rw [heardFrom, List.flatMap_assoc]
  rfl

/-- When all is taken, what was taken of a database is closed if its task closed it or has few. -/
theorem mem_closed_or_crowded {targets : List (String × ConnectionId)} (hu : r.Valid)
    (hslots : r.slots = []) (hg : r.Grows s) (hown : targets ⊆ s.closings)
    (hfew : ∀ batch ∈ s.takes, batch.length ≤ togetherBound → batch ⊆ s.closings) {d : String}
    {n : ConnectionId} (h : r.Opened d n) :
    n ∈ s.closed ∨ ∃ batch ∈ s.takes, batch ≠ targets ∧ togetherBound < batch.length ∧
      (d, n) ∈ batch := by
  obtain ⟨⟨e, k⟩, hmem, rfl⟩ := List.mem_map.mp (hu.accounted.mem_taken hslots h)
  obtain rfl : e = d :=
    Option.some.inj ((hu.accounted.taken hmem).1.symm.trans h.1)
  obtain ⟨batch, hbatch, hin⟩ := List.mem_flatten.mp hmem
  have hbatch := hg.takes.subset hbatch
  have hclosed (hsub : batch ⊆ s.closings) : k ∈ s.closed := by
    rw [← map_snd_closings]
    exact List.mem_map_of_mem (f := Prod.snd) (hsub hin)
  by_cases hlen : batch.length ≤ togetherBound
  · exact .inl (hclosed (hfew batch hbatch hlen))
  · by_cases hsame : batch = targets
    · exact .inl (hclosed (hsame ▸ hown))
    · exact .inr ⟨batch, hbatch, hsame, Nat.not_le.mp hlen, hin⟩

theorem Took.shutDown {visits : List (Visit ω)} {calls : List AnsweredClose}
    {x : Except Failure Unit} (h : Took c visits ⟨calls.map AnsweredClose.toCall, []⟩ s)
    (hlast : visits.getLast?.map (Visit.after c) = some s)
    (hx : (r.finishClose ⟨calls.map AnsweredClose.toCall, []⟩).1 = .ready x)
    (hclosed : ∀ v ∈ visits, v.registry.closed ⊆ v.registry.taken)
    (hfew : ∀ batch ∈ s.takes, batch.length ≤ togetherBound → batch ⊆ s.closings) :
    ∃ v, ShutDown c visits (x.map fun _ => .closed) v s calls := by
  obtain ⟨before, u, after, started, rfl, hquiet, htakes, hvalid, hgrows, hhead⟩ := h.taking
  obtain ⟨begun, hbegun, hadv, hown⟩ := h.advances
  obtain ⟨v, hfirst⟩ : ∃ v, (before ++ u :: after).head? = some v := by
    cases before <;> exact ⟨_, rfl⟩
  obtain ⟨hv, hvu⟩ := hhead v hfirst
  have hvmem := List.mem_of_head? hfirst
  -- what was there at the first visit had answered when the connections were taken
  have hanswered {d : String} {n : ConnectionId} (hd : v.registry.database? n = some d) :
      ∃ o, (u.after c).outcome? n = some o ∧ s.outcome? n = some o := by
    have hne := hvalid.consistent.outcome?_ne_none htakes.slots (hvu.database hd)
    obtain ⟨o, ho⟩ := Option.ne_none_iff_exists'.mp hne
    exact ⟨o, ho, hgrows.outcome ho⟩
  have hopen {d : String} {n : ConnectionId} (hd : v.registry.Holds d n) (ho : s.Opened d n) :
      (u.after c).Opened d n := by
    obtain ⟨slot, hslot, rfl⟩ := hd
    have hd := hv.consistent.database hslot
    obtain ⟨o, hou, hos⟩ := hanswered hd
    obtain rfl : .ok () = o := Option.some.inj (ho.2.symm.trans hos)
    exact ⟨hvu.database hd, hou⟩
  have hall : AnsweredClose.targets calls = begun := by
    have hqueued := hadv.queued
    rw [AnsweredClose.targets_map] at hqueued
    exact hqueued.trans (List.append_nil begun)
  rw [AnsweredClose.targets_map] at htakes hadv
  rw [← hall] at hbegun hadv hown
  refine ⟨v, hfirst, hlast, ?_, ?_, ?_, ⟨before, u, after, started, rfl, hquiet, htakes, ?_⟩,
    hbegun, ?_, ?_, AnsweredClose.result_of_ready hx, ?_⟩
  · intro d n hd
    obtain ⟨o, -, ho⟩ := hanswered hd
    simp [ho]
  · intro d n hd ho
    have htaken := hvalid.accounted.mem_taken htakes.slots (hopen hd ho)
    exact ⟨hgrows.mem_taken htaken, hv.accounted.held hd⟩
  · intro d n hd ho
    exact ⟨fun hc => hv.accounted.held hd (hclosed v hvmem hc),
      mem_closed_or_crowded hvalid htakes.slots hgrows hown hfew (hopen hd ho)⟩
  · intro hlen w hw
    have hstarted : u.started c = closeEvents (AnsweredClose.targets calls) := by
      rw [Visit.started_of_trace htakes.trace, htakes.together (by simpa [AnsweredClose.targets])]
    rw [List.flatMap_append, flatMap_started_of_quiet hquiet, List.nil_append, List.flatMap_cons,
      hstarted, List.append_right_eq_self, List.flatMap_eq_nil_iff] at hbegun
    exact Visit.quiet_iff.mpr (hbegun w hw)
  · obtain ⟨again, horder, -, hagain⟩ := hadv.order
    exact ⟨again, horder, hagain⟩
  · rw [flatMap_heard, ← AnsweredClose.heardFrom_map]
    exact hadv.heard
  · refine htakes.ascending.sublist ?_
    rw [AnsweredClose.targets, List.map_map]
    exact AnsweredClose.failures_sublist calls

/-- The visits of a life find and leave registries of a run. -/
theorem Completes.exists_run {job : Job} {visits : List (Visit ω)}
    {result : Except Failure Outcome} (h : Completes c job visits result) {v : Visit ω}
    (hv : v ∈ visits) :
    ∃ address world actions id,
      ((Machine.initial address world).run c actions).registry = v.registry ∧
        ((Machine.initial address world).run c (actions ++ [.poll id])).registry = v.after c := by
  obtain ⟨address, world, before, after, id, -, hwatch⟩ := h
  have hmem : v ∈ (((Machine.initial address world).run c before).watch c id after).1 := by
    rw [hwatch]
    exact hv
  obtain ⟨earlier, id', later, -, ht, hr⟩ :=
    Machine.exists_of_mem_visits (Machine.watch_subset_visits hmem)
  refine ⟨address, world, before ++ earlier, id', ?_, ?_⟩
  · rw [Machine.run_append]
    exact hr
  · rw [Machine.run_append, Machine.run_append, Machine.run_cons, Machine.run_nil, Visit.after,
      ← hr]
    exact Machine.registry_poll ht

/-- Where a closing task stands, as one among all tasks. -/
def Close.Stands (c : Connector ω) (visits : List (Visit ω)) (t : Task) (r : Registry ω) : Prop :=
  ∃ stage, t = .close stage ∧ stage.Stands c visits r

theorem Close.Stands.visit {visits : List (Visit ω)} {t next : Task} (hv : r.Valid)
    (hf : t.Fits r) (h : Close.Stands c visits t r) (hp : (t.poll c r).1 = .pending next) :
    Close.Stands c (visits ++ [⟨t, r⟩]) next (t.poll c r).2 := by
  obtain ⟨stage, rfl, hstands⟩ := h
  obtain ⟨k, hk, rfl⟩ := Task.lift_pending hp
  rw [Task.poll, Task.lift_snd]
  refine ⟨k, rfl, ?_⟩
  rcases hstands.visit hv hf with ⟨ws, hws, hdrained⟩ | ⟨closes, hcloses, htook⟩
  · obtain rfl := Progress.pending.inj (hk.symm.trans hws)
    exact hdrained
  · rw [finishClose_pending (hcloses.symm.trans hk)]
    exact htook

/-- Every life of a closing task is as `ShutDown` says. -/
theorem Completes.shutDown {visits : List (Visit ω)} {result : Except Failure Outcome}
    (h : Completes c .close visits result) : ∃ v s calls, ShutDown c visits result v s calls := by
  have hstart {r : Registry ω} (_ : r.Valid) : Close.Stands c [] (.ofJob .close) r :=
    ⟨.fresh, rfl, by simp, rfl, by simp⟩
  have haside {vs : List (Visit ω)} {t : Task} {r s : Registry ω} (_ : r.Valid)
      (hs : Close.Stands c vs t r) (hm : Moves c r s) : Close.Stands c vs t s := by
    obtain ⟨stage, ht, hs⟩ := hs
    exact ⟨stage, ht, hs.grows hm.grows⟩
  obtain ⟨vs, t, r, rfl, hv, hf, ⟨stage, rfl, hstands⟩, hp⟩ :=
    h.invariant hstart haside Close.Stands.visit
  obtain ⟨x, hx, rfl⟩ := Task.lift_ready hp
  rcases hstands.visit hv hf with ⟨ws, hws, -⟩ | ⟨⟨calls, queued⟩, hcloses, htook⟩
  · rw [hws] at hx
    simp at hx
  · rw [hcloses] at hx
    obtain ⟨hnil, hall, -⟩ := finishClose_ready hx
    obtain rfl : queued = [] := hnil
    obtain ⟨answered, rfl⟩ := AnsweredClose.exists_of_isSome hall
    have hlast : (vs ++ [(⟨.close stage, r⟩ : Visit ω)]).getLast?.map (Visit.after c) =
        some (r.pollClose c stage).2 := by
      rw [List.getLast?_append, ← Visit.after_close]
      rfl
    have hclosed : ∀ v ∈ vs ++ [(⟨.close stage, r⟩ : Visit ω)],
        v.registry.closed ⊆ v.registry.taken := by
      intro v hmem n hn
      obtain ⟨address, world, actions, -, hrun, -⟩ := h.exists_run hmem
      rw [← hrun] at hn ⊢
      exact (Machine.run_taken_perm c address world actions).mem_taken_of_closed hn
    have hfew : ∀ batch ∈ (r.pollClose c stage).2.takes, batch.length ≤ togetherBound →
        batch ⊆ (r.pollClose c stage).2.closings := by
      obtain ⟨address, world, actions, id, -, hrun⟩ :=
        h.exists_run (List.mem_append_right _ List.mem_cons_self)
      rw [← Visit.after_close, ← hrun]
      exact Machine.run_together c address world (actions ++ [.poll id])
    obtain ⟨v, hdone⟩ := htook.shutDown hlast hx hclosed hfew
    exact ⟨v, _, answered, hdone⟩

/-! ## Who calls close -/

end Gateway
