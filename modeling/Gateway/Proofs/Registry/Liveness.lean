import Gateway.Proofs.Task.Owed

/-!
# No wait without a connector that waits

A task that is polled can only be held up by a call that has not answered. Whatever
happened before, a new task finds nothing else in its way: an attempt that everybody has
left, or that answered while nobody looked, is asked and settled by the poll that comes to
it. So with a connector that answers at once a new task that acquires is ready after its
first poll, and so is a new closing task, which leaves the registry empty.
-/

namespace Gateway

/-- What becomes of a world by one connect or close call that is asked. -/
inductive Connector.Asked {ω : Type} (c : Connector ω) : ω → ω → Prop
  | connect (n : ConnectionId) (database url : String) (w : ω) :
      Asked c w (c.connect n database url w).2
  | close (n : ConnectionId) (database : String) (w : ω) : Asked c w (c.close n database w).2

/-- From a world on connect and close calls are answered as soon as they are asked. -/
def Connector.Prompt {ω : Type} (c : Connector ω) (w : ω) : Prop :=
  ∀ v, Relation.ReflTransGen c.Asked w v →
    (∀ n database url, (c.connect n database url v).1.isSome) ∧
      ∀ n database, (c.close n database v).1.isSome

section Prompt

variable {ω : Type} {c : Connector ω} {w : ω}

theorem Connector.Prompt.asked (h : c.Prompt w) {v : ω} (ha : c.Asked w v) : c.Prompt v := by
  intro u hu
  exact h u (.head ha hu)

theorem Connector.Prompt.connect (h : c.Prompt w) (n : ConnectionId) (database url : String) :
    (c.connect n database url w).1.isSome :=
  (h w .refl).1 n database url

theorem Connector.Prompt.close (h : c.Prompt w) (n : ConnectionId) (database : String) :
    (c.close n database w).1.isSome :=
  (h w .refl).2 n database

end Prompt

namespace Registry

variable {ω : Type} {c : Connector ω} {r s : Registry ω} {d : String} {n : ConnectionId}

/-! ## Acquiring -/

/-- An attempt that is asked has its outcome if its connect call answers. -/
theorem isSome_advance (hd : r.database? n = some d)
    (h : ∀ url, (c.connect n d url r.world).1.isSome) : (r.advance c n).1.isSome := by
  obtain ⟨o, hn⟩ := database?_eq_some.mp hd
  cases o with
  | none =>
    rw [advance_unanswered hn, Option.isSome_map]
    exact h _
  | some outcome => simp [advance, hn]

/-- Who waits for the attempt in the slot is ready, and the slot goes on to the connection or
is free. -/
theorem await_ready (hd : r.database? n = some d) (hs : r.slot? d = some (.connecting n))
    (h : ∀ url, (c.connect n d url r.world).1.isSome) :
    ∃ outcome : Except Failure Unit, (r.await c d n).1 = .ready (outcome.map fun _ => n) ∧
      (r.await c d n).2.slot? d = outcome.toOption.map fun _ => .established n := by
  obtain ⟨outcome, ho⟩ := Option.isSome_iff_exists.mp (isSome_advance hd h)
  have hslots := advance_slots (c := c) n r
  rcases ha : r.advance c n with ⟨answer, r'⟩
  rw [ha] at ho hslots
  obtain rfl : answer = some outcome := ho
  have hs' : r'.slot? d = some (.connecting n) := by
    rw [slot?, hslots]
    exact hs
  refine ⟨outcome, ?_, ?_⟩
  · simp only [await, ha]
  · simp only [await, ha]
    rw [slot?_settle hs', if_pos rfl]

theorem pollAcquire_ready (hr : r.Consistent) (h : ∀ n url, (c.connect n d url r.world).1.isSome) :
    ∃ result, (r.pollAcquire c d .fresh).1 = .ready result ∧
      (r.pollAcquire c d .fresh).2.slot? d = result.toOption.map Slot.established := by
  have hmap : ∀ (o : Except Failure Unit) (n : ConnectionId),
      (o.toOption.map fun _ => Slot.established n) =
        (o.map fun _ => n).toOption.map Slot.established := by
    intro o n
    cases o <;> rfl
  have hsay : ∀ e, (r.say (fetchRecord d)).slot? e = r.slot? e := fun _ => rfl
  unfold pollAcquire
  simp only [hsay]
  rcases hs : r.slot? d with _ | ⟨n | n⟩
  · have hdb := database?_launch (r.say (fetchRecord d)) d r.attempts.length
    have hslot := slot?_launch (r.say (fetchRecord d)) d d
    rw [if_pos rfl] at hslot
    obtain ⟨outcome, hready, hafter⟩ :=
      await_ready (c := c) (hdb.trans (if_pos rfl)) hslot fun url => h _ url
    exact ⟨_, hready, hafter.trans (hmap outcome _)⟩
  · have hdb : (r.say (fetchRecord d)).database? n = some d := hr.database hs
    obtain ⟨outcome, hready, hafter⟩ := await_ready (c := c) hdb hs fun url => h _ url
    exact ⟨_, hready, hafter.trans (hmap outcome n)⟩
  · exact ⟨.ok n, rfl, hs⟩

/-! ## Closing -/

theorem advance_prompt (h : c.Prompt r.world) (n : ConnectionId) :
    c.Prompt (r.advance c n).2.world := by
  rcases hn : r.attempts[n]? with _ | ⟨e, _ | o⟩
  · simpa [advance, hn] using h
  · rw [advance_unanswered hn]
    exact h.asked (.connect n e _ r.world)
  · simpa [advance, hn] using h

/-- A round over some attempts is over when each of them has a database to be asked for. -/
theorem advanceAll_ready (h : c.Prompt r.world) {ws : List (String × ConnectionId)}
    (hw : ∀ e ∈ ws, r.database? e.2 = some e.1) :
    (r.advanceAll c ws).1 = true ∧ c.Prompt (r.advanceAll c ws).2.world := by
  induction ws generalizing r with
  | nil => exact ⟨rfl, h⟩
  | cons e ws ih =>
      have hsome := isSome_advance (hw e List.mem_cons_self) fun url => h.connect e.2 e.1 url
      have hgrows := (advance_moves (c := c) e.2 r).grows
      obtain ⟨hrest, hworld⟩ := ih (advance_prompt h e.2) fun v hv =>
        hgrows.database (hw v (List.mem_cons_of_mem e hv))
      refine ⟨?_, hworld⟩
      simp only [advanceAll, Bool.and_eq_true]
      exact ⟨hsome, hrest⟩

/-- Draining takes one round and a look. -/
theorem drain_ready (hr : r.Consistent) (h : c.Prompt r.world) :
    (r.drain c maxRounds r.inFlight).1 = none ∧
      c.Prompt (r.drain c maxRounds r.inFlight).2.world := by
  unfold maxRounds
  by_cases hne : r.inFlight = []
  · rw [hne, drain_nil]
    exact ⟨rfl, h⟩
  · obtain ⟨hall, hworld⟩ := advanceAll_ready h fun _ he => (awaits_inFlight hr).database he
    rw [drain_of_answered 2 hne hall, inFlight_settleAll hr hall, drain_nil, settleAll_world]
    exact ⟨rfl, hworld⟩

theorem startClose_ready (h : c.Prompt r.world) (d : String) (n : ConnectionId) :
    (r.startClose c d n).1.answer.isSome ∧ c.Prompt (r.startClose c d n).2.world :=
  ⟨h.close n d, h.asked (.close n d r.world)⟩

/-- Side by side all calls answer when they are started. -/
theorem startCloses_ready (h : c.Prompt r.world) (es : List (String × ConnectionId)) :
    ∀ call ∈ (r.startCloses c es).1, call.answer.isSome := by
  induction es generalizing r with
  | nil =>
    intro call hcall
    exact absurd hcall List.not_mem_nil
  | cons e es ih =>
    obtain ⟨hanswer, hworld⟩ := startClose_ready h e.1 e.2
    intro call hcall
    rcases List.mem_cons.mp hcall with rfl | hcall
    · exact hanswer
    · exact ih hworld call hcall

/-- In turn an answer lets the poll go on, so it gets to the last call. -/
theorem askInTurn_ready (h : c.Prompt r.world) (es : List (String × ConnectionId))
    {calls : List CloseCall} (hcalls : ∀ call ∈ calls, call.answer.isSome) :
    (r.askInTurn c es.length ⟨calls, es⟩).1.isOver := by
  induction es generalizing r calls with
  | nil => exact List.all_eq_true.mpr hcalls
  | cons e es ih =>
    obtain ⟨hanswer, hworld⟩ := startClose_ready h e.1 e.2
    have hstep : r.askUntilAnswer c (es.length + 1) 0 ⟨calls, e :: es⟩ =
        (true, ⟨calls ++ [(r.startClose c e.1 e.2).1], es⟩, (r.startClose c e.1 e.2).2) := by
      simp only [askUntilAnswer, askDue]
      rw [if_pos hanswer]
    simp only [List.length_cons, askInTurn, hstep]
    refine ih hworld fun call hcall => ?_
    rcases List.mem_append.mp hcall with hcall | hcall
    · exact hcalls call hcall
    · rw [List.mem_singleton.mp hcall]
      exact hanswer

theorem askTogether_ready (h : c.Prompt r.world) (es : List (String × ConnectionId)) :
    (r.askTogether c ⟨[], es⟩).1.isOver := by
  have hunanswered : (⟨[], es⟩ : Closes).unanswered = es.length := by simp [Closes.unanswered]
  unfold askTogether
  split
  · cases es with
    | nil => rfl
    | cons e es => exact List.all_eq_true.mpr (startCloses_ready h (e :: es))
  · rw [hunanswered]
    exact askInTurn_ready h es fun call hcall => absurd hcall List.not_mem_nil

theorem finishClose_of_isOver {closes : Closes} (h : closes.isOver) (r : Registry ω) :
    ∃ result, (r.finishClose closes).1 = .ready result := by
  unfold finishClose
  rw [if_pos h]
  dsimp only
  split
  · exact ⟨_, rfl⟩
  · exact ⟨_, rfl⟩

theorem pollClose_ready (hv : r.Valid) (h : c.Prompt r.world) :
    (∃ result, (r.pollClose c .fresh).1 = .ready result) ∧
      (r.pollClose c .fresh).2.slots = [] := by
  have hready : ∃ result, (r.pollClose c .fresh).1 = .ready result := by
    obtain ⟨hnone, hworld⟩ := drain_ready hv.consistent h
    show ∃ result, (r.drainAndClose c r.inFlight).1 = .ready result
    unfold drainAndClose
    rcases hdrain : r.drain c maxRounds r.inFlight with ⟨ws, r'⟩
    rw [hdrain] at hnone hworld
    obtain rfl : ws = none := hnone
    exact finishClose_of_isOver
      (askTogether_ready (r := r'.takeEstablished.2) hworld r'.takeEstablished.1) _
  refine ⟨hready, ?_⟩
  obtain ⟨result, hresult⟩ := hready
  have hfits : Closing.fresh.Fits r := trivial
  rcases pollClose_cases (c := c) hv hfits trivial with
    ⟨ws, hpending, -⟩ | ⟨_, _, _, _, -, htakes, -⟩
  · rw [hresult] at hpending
    simp at hpending
  · exact htakes.slots

end Registry

/-! ## New tasks -/

namespace Machine

variable {ω : Type} {c : Connector ω} {m : Machine ω} {id : String}

theorem task?_start_self (h : m.task? id = none) (job : Job) :
    (m.start id job).task? id = some (.ofJob job) := by
  simp only [task?] at h
  simp [task?, start, Entries.get?_append, h, Entries.get?]

theorem poll_ready {t : Task} (h : m.task? id = some t) {result : Except Failure Outcome}
    (hready : (t.poll c m.registry).1 = .ready result) : (m.poll c id).1 = .ready result := by
  obtain ⟨before, after, -, -, hp⟩ := poll_of_some c h
  rw [hp]
  rcases ht : t.poll c m.registry with ⟨next | result', r⟩
  · simp [ht] at hready
  · rw [ht] at hready
    exact congrArg _ (Progress.ready.inj hready)

/-- **No schedule wedges the registry.** Tasks are started under a new name after any run. One
that acquires is ready after its first poll if connect calls for its database answer, and
then either the slot of the database has the connection that it got, which was never closed,
or it failed and there is no slot. One that closes is ready after its first poll if connect
and close calls answer, and leaves no slot at all. -/
theorem first_poll_ready (c : Connector ω) (address : BaseAddress) (world : ω)
    (actions : List (Action ω)) (id : String) :
    let m := (initial address world).run c actions
    m.task? id = none →
      (∀ d, (∀ n url, (c.connect n d url m.registry.world).1.isSome) →
        let polled := (m.start id (.acquire d)).poll c id
        (∃ n, polled.1 = .ready (.ok (.connection n)) ∧
            polled.2.registry.slot? d = some (.established n) ∧ n ∉ polled.2.registry.closed) ∨
          ∃ f, polled.1 = .ready (.error f) ∧ polled.2.registry.slot? d = none) ∧
      (c.Prompt m.registry.world →
        let polled := (m.start id .close).poll c id
        (∃ result, polled.1 = .ready result) ∧ polled.2.registry.slots = []) := by
  intro m hid
  have hv : m.registry.Valid := run_valid c address world actions
  refine ⟨?_, ?_⟩
  · intro d hanswers polled
    have htask := task?_start_self hid (.acquire d)
    have hvalid : polled.2.registry.Valid := hv.moves (poll_moves id (m.start id (.acquire d)))
    have hrun : (initial address world).run c (actions ++ [.start id (.acquire d), .poll id]) =
        polled.2 := run_append ..
    have haccounts := run_taken_perm c address world
      (actions ++ [.start id (.acquire d), .poll id])
    rw [hrun] at haccounts
    obtain ⟨result, hready, hslot⟩ := Registry.pollAcquire_ready hv.consistent hanswers
    have hreply := poll_ready htask (Task.lift_of_ready hready)
    have hafter : polled.2.registry.slot? d = result.toOption.map Slot.established := by
      rw [registry_poll htask]
      show ((Task.acquire d .fresh).poll c m.registry).2.slot? d = _
      rw [Task.poll, Task.lift_snd]
      exact hslot
    cases result with
    | ok n =>
      refine .inl ⟨n, hreply, hafter, fun hclosed => ?_⟩
      exact hvalid.accounted.held ⟨_, hafter, rfl⟩ (haccounts.mem_taken_of_closed hclosed)
    | error f => exact .inr ⟨f, hreply, hafter⟩
  · intro hprompt polled
    have htask := task?_start_self hid .close
    obtain ⟨⟨result, hready⟩, hslots⟩ := Registry.pollClose_ready hv hprompt
    refine ⟨⟨_, poll_ready htask (Task.lift_of_ready hready)⟩, ?_⟩
    rw [registry_poll htask]
    show ((Task.close .fresh).poll c m.registry).2.slots = []
    rw [Task.poll, Task.lift_snd]
    exact hslots

end Machine

/-! ## An attempt that everybody has left -/

namespace Store

variable {α : Type} {key : String} {answer : Store → α × Store} {s : Store}

theorem isSome_guarded (h : s.shut = []) : (guarded key answer s).1.isSome := by
  unfold guarded
  rw [if_pos (by simp [isOpen, h])]
  split <;> rfl

theorem shut_guarded (h : (answer s).2.shut = s.shut) : (guarded key answer s).2.shut = s.shut := by
  unfold guarded
  split
  · split
    · rfl
    · exact h
  · rfl

/-- No connect or close call shuts or opens a gate. -/
theorem shut_asked {v w : Store} (h : connector.Asked v w) : w.shut = v.shut := by
  cases h with
  | connect n database url => exact shut_guarded rfl
  | close n database =>
    have hguarded : (guarded ("close:" ++ database) (fun s => ((), s)) v).2.shut = v.shut :=
      shut_guarded rfl
    exact hguarded

/-- A store whose gates are all open answers at once. -/
theorem prompt (h : s.shut = []) : connector.Prompt s := by
  intro v hv
  have hopen : v.shut = [] := by
    induction hv with
    | refl => exact h
    | tail _ ha ih => exact (shut_asked ha).trans ih
  refine ⟨fun n database url => isSome_guarded hopen, fun n database => ?_⟩
  have hanswer : (guarded ("close:" ++ database) (fun s => ((), s)) v).1.isSome :=
    isSome_guarded hopen
  exact hanswer

end Store

/-- The only task that waits for a connect call is dropped, and then the gate opens. -/
def abandoned : List (Action Store) :=
  [.change (Store.shutGate "connect:a"), .start "1" (.acquire "a"), .poll "1", .drop "1",
    .change (Store.openGate "connect:a")]

/-- The machine after that. -/
def abandonedMachine : Machine Store :=
  (Machine.initial ⟨"mongodb://localhost:27017/", []⟩ Store.empty).run Store.connector abandoned

/-- The attempt that was left in its slot is of use to the next who asks, and does not stop a
closing task. -/
theorem abandoned_first_polls :
    (∃ n, ((abandonedMachine.start "2" (.acquire "a")).poll Store.connector "2").1 =
        .ready (.ok (.connection n))) ∧
      ((abandonedMachine.start "2" .close).poll Store.connector "2").2.registry.slots = [] := by
  have hshut : abandonedMachine.registry.world.shut = [] := by decide
  have hprompt := Store.prompt hshut
  obtain ⟨hacquire, hclose⟩ := Machine.first_poll_ready Store.connector
    ⟨"mongodb://localhost:27017/", []⟩ Store.empty abandoned "2" rfl
  refine ⟨?_, (hclose hprompt).2⟩
  rcases hacquire "a" fun n url => hprompt.connect n "a" url with ⟨n, hreply, -⟩ | ⟨f, hreply, -⟩
  · exact ⟨n, hreply⟩
  · have hready : ((abandonedMachine.start "2" (.acquire "a")).poll Store.connector "2").1 =
        .ready (.ok (.connection 0)) := by rfl
    rw [abandonedMachine] at hready
    rw [hready] at hreply
    simp at hreply

end Gateway
