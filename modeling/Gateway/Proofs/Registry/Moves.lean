import Gateway.Proofs.Registry.Steps

/-!
# What a registry can do in one move

What most statements about a registry look at are its slots, its attempts and its calls.
For these there are only seven kinds of moves (`Move`), in which the world of the connector
and the log may become anything. What is to hold in all runs need only be looked at for
these seven: every step of a poll is a sequence of moves (`Step.moves`), and so is every
poll (`Task.poll_moves`) and every run (`Machine.run_moves`).

Taking the connections out of their slots is one move, and starting the close call of one of
them is another, between which other tasks may get their turn.
-/

namespace Gateway

namespace Registry

variable {ω : Type} {c : Connector ω}

/-- The world moves on and records are written. -/
def drift (world : ω) (log : List Log.Record) (r : Registry ω) : Registry ω :=
  { r with world, log }

/-- The connect call of an attempt has answered. -/
def fulfil (n : ConnectionId) (database : String) (outcome : Except Failure Unit)
    (r : Registry ω) : Registry ω :=
  { r with attempts := r.attempts.set n ⟨database, some outcome⟩ }

/-- The moves of a registry over a connector. -/
inductive Move (c : Connector ω) : Registry ω → Registry ω → Prop
  | drift {r : Registry ω} (world : ω) (log : List Log.Record) : Move c r (r.drift world log)
  | query {r : Registry ω} {e : Event} (he : e.IsQuery) : Move c r (r.note e)
  | launch {r : Registry ω} {database : String} (h : r.slot? database = none) :
      Move c r (r.launch database)
  | fulfil {r : Registry ω} {n : ConnectionId} {database : String}
      {answer : Except Failure Unit} (h : r.attempts[n]? = some ⟨database, none⟩)
      (hc : (c.connect n database (r.address.urlFor database) r.world).1 = some answer) :
      Move c r (r.fulfil n database (answer.mapError (Failure.asConnect database)))
  | settle {r : Registry ω} {n : ConnectionId} {outcome : Except Failure Unit}
      (database : String) (h : r.outcome? n = some outcome) :
      Move c r (r.settle database n outcome)
  /-- All established connections leave their slots. -/
  | take {r : Registry ω} : Move c r r.takeEstablished.2
  | close {r : Registry ω} (database : String) (n : ConnectionId) :
      Move c r (r.note (.close n database))

/-- Any number of moves. -/
abbrev Moves (c : Connector ω) : Registry ω → Registry ω → Prop := Relation.ReflTransGen (Move c)

theorem Moves.of_move {r s : Registry ω} (h : Move c r s) : Moves c r s := .single h

theorem Moves.drift (r : Registry ω) (world : ω) (log : List Log.Record) :
    Moves c r (r.drift world log) :=
  .of_move (.drift world log)

theorem say_moves (r : Registry ω) (record : Log.Record) : Moves c r (r.say record) :=
  Moves.drift r r.world (r.log ++ [record])

/-! ## Attempts -/

theorem advance_moves (n : ConnectionId) (r : Registry ω) : Moves c r (r.advance c n).2 := by
  rcases hn : r.attempts[n]? with _ | ⟨database, _ | outcome⟩
  · simp [advance, hn, Relation.ReflTransGen.refl]
  · rw [advance_unanswered hn]
    rcases hc : c.connect n database (r.address.urlFor database) r.world with ⟨_ | answer, world⟩
    -- no answer yet: the attempt is written back as it was
    · have hset : r.attempts.set n ⟨database, none⟩ = r.attempts := by
        obtain ⟨h, hget⟩ := List.getElem?_eq_some_iff.mp hn
        rw [← hget, List.set_getElem_self]
      simp only [Option.map_none, hset]
      exact Moves.drift r world r.log
    · have hm : Move c r (r.fulfil n database (answer.mapError (Failure.asConnect database))) :=
        .fulfil hn (by rw [hc])
      exact (Moves.of_move hm).trans (Moves.drift _ world r.log)
  · simp [advance, hn, Relation.ReflTransGen.refl]

theorem startClose_moves (database : String) (n : ConnectionId) (r : Registry ω) :
    Moves c r (r.startClose c database n).2 := by
  have hsay := say_moves (c := c) r (closeRecord database)
  exact (hsay.tail (.close database n)).trans (Moves.drift _ _ _)

/-- The end of a poll only writes a record. -/
theorem finishClose_snd (closes : Closes) (r : Registry ω) :
    ∃ log, (r.finishClose closes).2 = r.drift r.world log := by
  simp only [finishClose]
  split
  · split
    · exact ⟨r.log, rfl⟩
    · exact ⟨_, rfl⟩
  · exact ⟨r.log, rfl⟩

/-! ## Steps are moves -/

theorem Aside.moves {r s : Registry ω} (h : Aside c r s) : Moves c r s := by
  cases h with
  | log log => exact Moves.drift r r.world log
  | query he => exact .of_move (.query he)
  | find n database collection query => exact Moves.drift r _ r.log
  | count n database collection filter => exact Moves.drift r _ r.log

theorem Step.moves {r s : Registry ω} (h : Step c r s) : Moves c r s := by
  cases h with
  | aside h => exact h.moves
  | launch hd => exact .of_move (.launch hd)
  | advance n => exact advance_moves n r
  | settle d ho => exact .of_move (.settle d ho)
  | take => exact .of_move .take
  | startClose d n => exact startClose_moves d n r
  | askClose d n => exact Moves.drift r _ r.log

theorem Steps.moves {r s : Registry ω} (h : Steps c r s) : Moves c r s := by
  induction h with
  | refl => exact .refl
  | tail _ h ih => exact ih.trans h.moves

theorem await_moves (database : String) (n : ConnectionId) (r : Registry ω) :
    Moves c r (r.await c database n).2 := (await_steps database n r).moves

theorem pollAcquire_moves (database : String) (stage : Acquiring) (r : Registry ω) :
    Moves c r (r.pollAcquire c database stage).2 := (pollAcquire_steps database stage r).moves

theorem advanceAll_moves (ws : List (String × ConnectionId)) (r : Registry ω) :
    Moves c r (r.advanceAll c ws).2 := (advanceAll_steps ws r).moves

theorem settleAll_moves (ws : List (String × ConnectionId)) (r : Registry ω) :
    Moves c r (r.settleAll ws) := (settleAll_steps (c := c) ws r).moves

theorem drain_moves (rounds : Nat) (ws : List (String × ConnectionId)) (r : Registry ω) :
    Moves c r (r.drain c rounds ws).2 := (drain_steps rounds ws r).moves

theorem pollClose_moves (stage : Closing) (r : Registry ω) :
    Moves c r (r.pollClose c stage).2 := (pollClose_steps stage r).moves

end Registry

/-! ## Tasks and runs -/

open Registry

variable {ω : Type} {c : Connector ω}

namespace Task

/-- A poll of a task is a sequence of moves of the registry. -/
theorem poll_moves (t : Task) (r : Registry ω) : Moves c r (t.poll c r).2 :=
  (t.poll_steps r).moves

end Task

namespace Machine

theorem poll_moves (id : String) (m : Machine ω) :
    Moves c m.registry (m.poll c id).2.registry := by
  simp only [poll]
  split
  · exact .refl
  · rename_i task after _
    have ht := task.poll_moves (c := c) m.registry
    rcases h : task.poll c m.registry with ⟨next | result, r⟩
    all_goals rw [h] at ht; exact ht

theorem act_moves (m : Machine ω) (a : Action ω) :
    Moves c m.registry (m.act c a).registry := by
  cases a with
  | start id job => exact .refl
  | poll id => exact poll_moves id m
  | drop id => exact .refl
  | change f => exact Moves.drift m.registry (f m.registry.world) m.registry.log

/-- A run is a sequence of moves of the registry. -/
theorem run_moves (m : Machine ω) (actions : List (Action ω)) :
    Moves c m.registry (m.run c actions).registry := by
  induction actions generalizing m with
  | nil => exact .refl
  | cons a actions ih => exact (act_moves m a).trans (ih _)

end Machine

end Gateway
