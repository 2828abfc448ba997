import Gateway.Proofs.Registry.Asking
import Gateway.Proofs.Task.Acquisitions
import Mathlib.Logic.Relation

/-!
# The steps of a poll

A poll of a task does several things to the registry, one after the other. Whatever the
task is and wherever it stands, each of them is a step of one of seven kinds (`Step`), and
every poll is a sequence of steps (`Task.poll_steps`). A step says exactly what becomes of
the world of the connector; where that does not matter, see `Registry.Move`.
-/

namespace Gateway

namespace Registry

variable {ω : Type} {c : Connector ω}

/-- The steps of a registry over a connector. -/
inductive Step (c : Connector ω) : Registry ω → Registry ω → Prop
  | aside {r s : Registry ω} (h : Aside c r s) : Step c r s
  | launch {r : Registry ω} {database : String} (h : r.slot? database = none) :
      Step c r (r.launch database)
  | advance {r : Registry ω} (n : ConnectionId) : Step c r (r.advance c n).2
  | settle {r : Registry ω} {n : ConnectionId} {outcome : Except Failure Unit}
      (database : String) (h : r.outcome? n = some outcome) :
      Step c r (r.settle database n outcome)
  | take {r : Registry ω} : Step c r r.takeEstablished.2
  | startClose {r : Registry ω} (database : String) (n : ConnectionId) :
      Step c r (r.startClose c database n).2
  | askClose {r : Registry ω} (database : String) (n : ConnectionId) :
      Step c r (r.askClose c database n).2

/-- Any number of steps. -/
abbrev Steps (c : Connector ω) : Registry ω → Registry ω → Prop := Relation.ReflTransGen (Step c)

theorem Aside.steps {r s : Registry ω} (h : Aside c r s) : Steps c r s := .single (.aside h)

theorem say_steps (r : Registry ω) (record : Log.Record) : Steps c r (r.say record) :=
  (Aside.log _).steps

/-! ## Acquiring -/

/-- An attempt without an outcome is asked, and keeps the answer. -/
theorem advance_unanswered {n : ConnectionId} {r : Registry ω} {database : String}
    (hn : r.attempts[n]? = some ⟨database, none⟩) :
    r.advance c n =
      ((c.connect n database (r.address.urlFor database) r.world).1.map fun e =>
          e.mapError (Failure.asConnect database),
        { r with
          world := (c.connect n database (r.address.urlFor database) r.world).2
          attempts := r.attempts.set n ⟨database,
            (c.connect n database (r.address.urlFor database) r.world).1.map fun e =>
              e.mapError (Failure.asConnect database)⟩ }) := by
  simp only [advance, hn]

/-- Asking an attempt gives what the attempt then holds. -/
theorem advance_fst (n : ConnectionId) (r : Registry ω) :
    (r.advance c n).1 = (r.advance c n).2.outcome? n := by
  rcases hn : r.attempts[n]? with _ | ⟨database, _ | outcome⟩
  · simp [advance, outcome?, hn]
  · obtain ⟨hlt, -⟩ := List.getElem?_eq_some_iff.mp hn
    rw [advance_unanswered hn]
    simp [outcome?, hlt]
  · simp [advance, outcome?, hn]

theorem advance_steps (n : ConnectionId) (r : Registry ω) : Steps c r (r.advance c n).2 :=
  .single (.advance n)

theorem await_steps (database : String) (n : ConnectionId) (r : Registry ω) :
    Steps c r (r.await c database n).2 := by
  have ha := advance_steps (c := c) n r
  have ho := advance_fst (c := c) n r
  rcases h : r.advance c n with ⟨_ | outcome, r'⟩
  · rw [h] at ha
    simpa [await, h] using ha
  · rw [h] at ha ho
    have hs : Step c r' (r'.settle database n outcome) := .settle database ho.symm
    simpa [await, h] using ha.tail hs

theorem pollAcquire_steps (database : String) (stage : Acquiring) (r : Registry ω) :
    Steps c r (r.pollAcquire c database stage).2 := by
  cases stage with
  | joined n => exact await_steps database n r
  | fresh =>
    have hsay := say_steps (c := c) r (fetchRecord database)
    simp only [pollAcquire]
    split
    · exact hsay
    · exact hsay.trans (await_steps database _ _)
    · rename_i hslot
      have hl : Step c (r.say (fetchRecord database)) _ := .launch hslot
      exact (hsay.tail hl).trans (await_steps database _ _)

/-- The way of a request through its acquire calls. -/
theorem Through.steps {as : List (Acquisition ω)} {r s : Registry ω} (h : Through c as r s) :
    Steps c r s := by
  induction h with
  | done => exact .refl
  | aside h _ ih => exact h.steps.trans ih
  | @acquire a _ _ _ ih => exact (pollAcquire_steps a.database a.stage a.registry).trans ih

/-! ## Closing -/

theorem advanceAll_steps (ws : List (String × ConnectionId)) (r : Registry ω) :
    Steps c r (r.advanceAll c ws).2 := by
  induction ws generalizing r with
  | nil => exact .refl
  | cons w ws ih => exact (advance_steps w.2 r).trans (ih _)

theorem settleAll_steps (ws : List (String × ConnectionId)) (r : Registry ω) :
    Steps c r (r.settleAll ws) := by
  induction ws generalizing r with
  | nil => exact .refl
  | cons w ws ih =>
      simp only [settleAll]
      split
      · rename_i outcome ho
        have hs : Step c r (r.settle w.1 w.2 outcome) := .settle w.1 ho
        exact .head hs (ih _)
      · exact ih r

theorem drain_steps (rounds : Nat) (ws : List (String × ConnectionId)) (r : Registry ω) :
    Steps c r (r.drain c rounds ws).2 := by
  induction rounds generalizing ws r with
  | zero => exact .refl
  | succ rounds ih =>
      have ha := advanceAll_steps (c := c) ws r
      simp only [drain]
      split
      · exact .refl
      · rcases h : r.advanceAll c ws with ⟨_ | _, r'⟩
        · rw [h] at ha
          exact ha
        · rw [h] at ha
          exact (ha.trans (settleAll_steps ws r')).trans (ih _ _)

theorem Asking.steps {closes closes' : Closes} {r s : Registry ω} {asked : List CloseCall}
    (h : Asking c closes r asked closes' s) : Steps c r s := by
  induction h with
  | done => exact .refl
  | @start _ _ _ database n _ _ _ _ ih => exact .head (.startClose database n) ih
  | @ask _ _ _ call _ _ _ _ _ _ ih => exact .head (.askClose call.database call.connection) ih

theorem finishClose_steps (closes : Closes) (r : Registry ω) :
    Steps c r (r.finishClose closes).2 := by
  simp only [finishClose]
  split
  · split
    · exact .refl
    · exact say_steps r _
  · exact .refl

theorem goOnClosing_steps (closes : Closes) (r : Registry ω) :
    Steps c r (r.goOnClosing c closes).2 := by
  obtain ⟨asked, hasked⟩ := askTogether_asking (c := c) closes r
  exact hasked.steps.trans (finishClose_steps _ _)

theorem drainAndClose_steps (ws : List (String × ConnectionId)) (r : Registry ω) :
    Steps c r (r.drainAndClose c ws).2 := by
  have hd := drain_steps (c := c) maxRounds ws r
  rcases h : r.drain c maxRounds ws with ⟨_ | ws', r'⟩
  all_goals rw [h] at hd; simp only [drainAndClose, h]
  · exact (hd.tail .take).trans (goOnClosing_steps _ _)
  · exact hd

theorem pollClose_steps (stage : Closing) (r : Registry ω) :
    Steps c r (r.pollClose c stage).2 := by
  cases stage with
  | fresh => exact drainAndClose_steps r.inFlight r
  | draining ws => exact drainAndClose_steps ws r
  | closing closes => exact goOnClosing_steps closes r

end Registry

/-! ## Tasks -/

namespace Task

variable {ω : Type} {c : Connector ω}

@[simp]
theorem lift_snd {σ α : Type} (next : σ → Task) (result : α → Outcome)
    (p : Progress σ (Except Failure α) × Registry ω) : (lift next result p).2 = p.2 := by
  rcases p with ⟨_ | _, r⟩ <;> rfl

/-- A poll of a task is a sequence of steps of the registry. -/
theorem poll_steps (t : Task) (r : Registry ω) : Registry.Steps c r (t.poll c r).2 := by
  cases t with
  | acquire database stage =>
    rw [poll, lift_snd]
    exact Registry.pollAcquire_steps database stage r
  | request kind req stage =>
    rw [poll, lift_snd]
    exact (Registry.pollRequest_through req r kind stage).steps
  | close stage =>
    rw [poll, lift_snd]
    exact Registry.pollClose_steps stage r

end Task

end Gateway
