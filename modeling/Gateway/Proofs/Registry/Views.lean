import Gateway.Proofs.Entries
import Gateway.Proofs.Registry.Moves

/-!
# Views of a registry

What the statements about a registry look at: the attempt that a slot holds, the
database and the outcome of an attempt, the connections that were taken, and the calls in the
trace. Each move changes
each view in one equation, so no later proof opens the moves.
-/

namespace Gateway

/-- The attempt that a slot holds, or from which its connection came. -/
def Slot.attempt : Slot → ConnectionId
  | .connecting n => n
  | .established n => n

/-- The connect call that an event starts: its number, database and URL. -/
def Event.connect? : Event → Option (ConnectionId × String × String)
  | .connect n database url => some (n, database, url)
  | _ => none

/-- The close call that an event starts: its connection and database. -/
def Event.close? : Event → Option (ConnectionId × String)
  | .close n database => some (n, database)
  | _ => none

theorem Event.IsQuery.connect? {e : Event} (h : e.IsQuery) : e.connect? = none := by
  cases e <;> first | rfl | exact h.elim

theorem Event.IsQuery.close? {e : Event} (h : e.IsQuery) : e.close? = none := by
  cases e <;> first | rfl | exact h.elim

namespace Registry

variable {ω : Type}

/-- The database of an attempt. -/
def database? (r : Registry ω) (n : ConnectionId) : Option String :=
  r.attempts[n]?.map Attempt.database

/-- The connect calls so far. -/
def connectCalls (r : Registry ω) : List (ConnectionId × String × String) :=
  r.trace.filterMap Event.connect?

/-- The close calls so far. -/
def closeCalls (r : Registry ω) : List (ConnectionId × String) :=
  r.trace.filterMap Event.close?

/-- The connections that closing tasks have taken. -/
def taken (r : Registry ω) : List ConnectionId := r.takes.flatten.map Prod.snd

/-- The connections whose close was called, once for each call. -/
def closed (r : Registry ω) : List ConnectionId := r.closeCalls.map Prod.fst

/-- The connections whose close was called, behind their databases. -/
def closings (r : Registry ω) : List (String × ConnectionId) := r.closeCalls.map Prod.swap

theorem map_snd_closings (r : Registry ω) : r.closings.map Prod.snd = r.closed := by
  rw [closings, closed, List.map_map]
  rfl

theorem database?_eq_some {r : Registry ω} {n : ConnectionId} {database : String} :
    r.database? n = some database ↔ ∃ o, r.attempts[n]? = some ⟨database, o⟩ := by
  simp only [database?, Option.map_eq_some_iff]
  constructor
  · rintro ⟨⟨d, o⟩, h, rfl⟩
    exact ⟨o, h⟩
  · rintro ⟨o, h⟩
    exact ⟨_, h, rfl⟩

theorem lt_length_of_database? {r : Registry ω} {n : ConnectionId} {database : String}
    (h : r.database? n = some database) : n < r.attempts.length := by
  obtain ⟨o, h⟩ := database?_eq_some.mp h
  obtain ⟨h, -⟩ := List.getElem?_eq_some_iff.mp h
  exact h

/-- An attempt with an outcome has a database. -/
theorem exists_database?_of_outcome? {r : Registry ω} {n : ConnectionId}
    {outcome : Except Failure Unit} (h : r.outcome? n = some outcome) :
    ∃ database, r.attempts[n]? = some ⟨database, some outcome⟩ := by
  obtain ⟨⟨d, o⟩, ha, ho⟩ := Option.bind_eq_some_iff.mp h
  exact ⟨d, by rw [ha]; exact congrArg _ (congrArg _ ho)⟩

theorem attempts_eq_some {r : Registry ω} {n : ConnectionId} {database : String}
    {o : Option (Except Failure Unit)} :
    r.attempts[n]? = some ⟨database, o⟩ ↔ r.database? n = some database ∧ r.outcome? n = o := by
  rcases h : r.attempts[n]? with _ | ⟨d, o'⟩ <;> simp [database?, outcome?, h]

/-! ## After a launch -/

section Launch

variable (r : Registry ω) (database : String)

theorem slot?_launch (other : String) :
    (r.launch database).slot? other =
      if other = database then some (.connecting r.attempts.length) else r.slot? other :=
  Entries.get?_insert ..

theorem database?_launch (n : ConnectionId) :
    (r.launch database).database? n =
      if n = r.attempts.length then some database else r.database? n := by
  simp only [database?, launch, List.getElem?_append, List.getElem?_singleton]
  grind

theorem outcome?_launch (n : ConnectionId) :
    (r.launch database).outcome? n = r.outcome? n := by
  simp only [outcome?, launch, List.getElem?_append, List.getElem?_singleton]
  grind

theorem connectCalls_launch :
    (r.launch database).connectCalls =
      r.connectCalls ++ [(r.attempts.length, database, r.address.urlFor database)] := by
  simp [connectCalls, launch, Event.connect?]

theorem closeCalls_launch : (r.launch database).closeCalls = r.closeCalls := by
  simp [closeCalls, launch, Event.close?]

end Launch

/-! ## After an answer -/

section Fulfil

variable (r : Registry ω) {n : ConnectionId} {database : String}

theorem database?_fulfil (outcome : Except Failure Unit) (h : r.database? n = some database)
    (k : ConnectionId) : (r.fulfil n database outcome).database? k = r.database? k := by
  simp only [database?, fulfil, List.getElem?_set] at h ⊢
  grind

theorem outcome?_fulfil (outcome : Except Failure Unit) (h : r.database? n = some database)
    (k : ConnectionId) :
    (r.fulfil n database outcome).outcome? k =
      if k = n then some outcome else r.outcome? k := by
  have hlt := lt_length_of_database? h
  simp only [outcome?, fulfil, List.getElem?_set]
  grind

end Fulfil

/-! ## After settling -/

section Settle

variable {r : Registry ω} {n : ConnectionId} {database : String}

theorem settle_of_ne (outcome : Except Failure Unit)
    (h : r.slot? database ≠ some (.connecting n)) : r.settle database n outcome = r := by
  simp [settle, h]

/-- The slot goes on to the connection, if there is one. -/
theorem slot?_settle (h : r.slot? database = some (.connecting n))
    (outcome : Except Failure Unit) (other : String) :
    (r.settle database n outcome).slot? other =
      if other = database then outcome.toOption.map fun _ => .established n
      else r.slot? other := by
  simp only [settle, if_pos h]
  cases outcome with
  | ok => exact Entries.get?_insert ..
  | error f => exact Entries.get?_erase ..

/-- What is in a slot after settling: the connection that opened, or what was there before. -/
theorem slot?_settle_eq_some (h : r.slot? database = some (.connecting n))
    (outcome : Except Failure Unit) {e : String} {s : Slot} :
    (r.settle database n outcome).slot? e = some s ↔
      (e = database ∧ outcome = .ok () ∧ s = .established n) ∨
        (e ≠ database ∧ r.slot? e = some s) := by
  rw [slot?_settle h]
  by_cases he : e = database
  · cases outcome <;> simp [he, Except.toOption, eq_comm]
  · simp [he]

/-- Settling moves a slot, and may write a record. -/
theorem settle_eq (r : Registry ω) (database : String) (n : ConnectionId)
    (outcome : Except Failure Unit) :
    ∃ slots log, r.settle database n outcome = { r with slots, log } := by
  simp only [settle]
  split
  · cases outcome <;> exact ⟨_, _, rfl⟩
  · exact ⟨_, _, rfl⟩

theorem settle_frame (r : Registry ω) (database : String) (n : ConnectionId)
    (outcome : Except Failure Unit) :
    (r.settle database n outcome).attempts = r.attempts ∧
      (r.settle database n outcome).trace = r.trace ∧
      (r.settle database n outcome).address = r.address := by
  obtain ⟨_, _, h⟩ := settle_eq r database n outcome
  rw [h]
  exact ⟨rfl, rfl, rfl⟩

theorem settle_world (r : Registry ω) (database : String) (n : ConnectionId)
    (outcome : Except Failure Unit) : (r.settle database n outcome).world = r.world := by
  obtain ⟨_, _, h⟩ := settle_eq r database n outcome
  rw [h]

theorem settle_takes (r : Registry ω) (database : String) (n : ConnectionId)
    (outcome : Except Failure Unit) : (r.settle database n outcome).takes = r.takes := by
  obtain ⟨_, _, h⟩ := settle_eq r database n outcome
  rw [h]

theorem database?_settle (r : Registry ω) (database : String) (n : ConnectionId)
    (outcome : Except Failure Unit) (k : ConnectionId) :
    (r.settle database n outcome).database? k = r.database? k := by
  simp only [database?, (settle_frame r database n outcome).1]

theorem outcome?_settle (r : Registry ω) (database : String) (n : ConnectionId)
    (outcome : Except Failure Unit) (k : ConnectionId) :
    (r.settle database n outcome).outcome? k = r.outcome? k := by
  simp only [outcome?, (settle_frame r database n outcome).1]

theorem nodup_settle (hn : (Entries.keys r.slots).Nodup) (outcome : Except Failure Unit) :
    (Entries.keys (r.settle database n outcome).slots).Nodup := by
  simp only [settle]
  split
  · cases outcome with
    | ok => exact Entries.nodup_insert hn
    | error f => exact Entries.nodup_erase hn
  · exact hn

end Settle

/-! ## After the connections are taken -/

section Take

variable {r : Registry ω}

theorem mem_takeEstablished (hn : (Entries.keys r.slots).Nodup) {database : String}
    {n : ConnectionId} :
    (database, n) ∈ r.takeEstablished.1 ↔ r.slot? database = some (.established n) := by
  simp only [takeEstablished, sortByName, List.mem_mergeSort, established, List.mem_filterMap]
  constructor
  · rintro ⟨⟨d, s⟩, hmem, hs⟩
    cases s with
    | connecting k => simp at hs
    | established k =>
      simp only [Option.some.injEq, Prod.mk.injEq] at hs
      obtain ⟨rfl, rfl⟩ := hs
      exact Entries.get?_eq_some_of_mem hn hmem
  · intro h
    exact ⟨_, Entries.mem_of_get?_eq_some h, rfl⟩

theorem slot?_take (hn : (Entries.keys r.slots).Nodup) {database : String} {s : Slot} :
    r.takeEstablished.2.slot? database = some s ↔
      r.slot? database = some s ∧ ∃ n, s = .connecting n := by
  simp only [slot?, takeEstablished]
  rw [Entries.get?_filter hn]
  cases s <;> simp

theorem established_names_sublist (r : Registry ω) :
    (r.established.map Prod.fst).Sublist (Entries.keys r.slots) := by
  simp only [established]
  induction r.slots with
  | nil => exact .slnil
  | cons e es ih =>
      obtain ⟨d, _ | n⟩ := e
      · exact ih.cons d
      · exact ih.cons_cons d

/-- The names of the connections taken are distinct. -/
theorem nodup_takeEstablished (hn : (Entries.keys r.slots).Nodup) :
    (r.takeEstablished.1.map Prod.fst).Nodup := by
  have hp : (sortByName r.established).Perm r.established := List.mergeSort_perm _ _
  exact (hp.map Prod.fst).nodup_iff.mpr (r.established_names_sublist.nodup hn)

theorem flatten_takes_take (r : Registry ω) :
    r.takeEstablished.2.takes.flatten = r.takes.flatten ++ r.takeEstablished.1 := by
  simp [takeEstablished]

theorem taken_take (r : Registry ω) :
    r.takeEstablished.2.taken = r.taken ++ r.takeEstablished.1.map Prod.snd := by
  rw [taken, taken, flatten_takes_take, List.map_append]

end Take

/-! ## Close calls in the trace -/

theorem close?_closeEvents (started : List (String × ConnectionId)) :
    (closeEvents started).filterMap Event.close? = started.map Prod.swap := by
  rw [closeEvents, List.filterMap_map, ← List.filterMap_eq_map]
  rfl

theorem closeCalls_of_trace {r s : Registry ω} {started : List (String × ConnectionId)}
    (h : s.trace = r.trace ++ closeEvents started) :
    s.closeCalls = r.closeCalls ++ started.map Prod.swap := by
  rw [closeCalls, closeCalls, h, List.filterMap_append, close?_closeEvents]

theorem closings_of_trace {r s : Registry ω} {started : List (String × ConnectionId)}
    (h : s.trace = r.trace ++ closeEvents started) : s.closings = r.closings ++ started := by
  rw [closings, closings, closeCalls_of_trace h, List.map_append, List.map_map]
  simp

theorem connect?_closeEvents (started : List (String × ConnectionId)) :
    (closeEvents started).filterMap Event.connect? = [] := by
  rw [closeEvents, List.filterMap_map]
  exact List.filterMap_eq_nil_iff.mpr fun _ _ => rfl

theorem connectCalls_of_trace {r s : Registry ω} {started : List (String × ConnectionId)}
    (h : s.trace = r.trace ++ closeEvents started) : s.connectCalls = r.connectCalls := by
  rw [connectCalls, connectCalls, h, List.filterMap_append, connect?_closeEvents, List.append_nil]

end Registry

end Gateway
