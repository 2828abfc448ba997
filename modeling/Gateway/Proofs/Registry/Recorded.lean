import Gateway.Proofs.Registry.Beside
import Gateway.Proofs.Registry.Draining

/-!
# What close calls are asked

What a close call answered is in no registry: the world that answered moves on, and the
task that heard it keeps it to itself. So a connector is given something beside its world, in
which every close call is written down as it is asked, with its answer if it gave one
(`Connector.recorded`).

Nothing else changes. A poll of a closing task over the recorded connector gives and does
what it does over the connector itself. Draining writes nothing down (`drain_recorded`), and
what is written down of the close calls are those that were asked, in their order
(`askTogether_recorded`).
-/

namespace Gateway

/-- A connector that also writes down its close calls as they are asked. -/
def Connector.recorded {ω : Type} (c : Connector ω) : Connector (ω × List CloseCall) where
  connect n database url w :=
    let (answer, world) := c.connect n database url w.1
    (answer, world, w.2)
  find n database collection query w :=
    let (answer, world) := c.find n database collection query w.1
    (answer, world, w.2)
  count n database collection filter w :=
    let (answer, world) := c.count n database collection filter w.1
    (answer, world, w.2)
  close n database w :=
    let (answer, world) := c.close n database w.1
    (answer, world, w.2 ++ [⟨database, n, answer⟩])
  woken w := c.woken w.1

theorem Connector.recorded_extends {ω : Type} (c : Connector ω) : c.recorded.Extends c where
  connect _ _ _ _ := rfl
  find _ _ _ _ _ := rfl
  count _ _ _ _ _ := rfl
  close _ _ _ := rfl
  woken _ := rfl

theorem Connector.recorded_connectsBeside {ω : Type} (c : Connector ω) :
    c.recorded.ConnectsBeside := fun _ _ _ _ => rfl

namespace Registry

variable {ω : Type} {c : Connector ω}

/-- A registry with a record beside its world. -/
def recording (record : List CloseCall) (r : Registry ω) : Registry (ω × List CloseCall) :=
  { r with world := (r.world, record) }

variable (record : List CloseCall)

/-! ## Draining -/

theorem advance_recorded (n : ConnectionId) (r : Registry ω) :
    (r.recording record).advance c.recorded n =
      ((r.advance c n).1, (r.advance c n).2.recording record) := by
  rcases hn : r.attempts[n]? with _ | ⟨d, _ | o⟩
  · simp [advance, recording, hn]
  · simp [advance, recording, hn, Connector.recorded]
  · simp [advance, recording, hn]

theorem settle_recorded (d : String) (n : ConnectionId) (o : Except Failure Unit)
    (r : Registry ω) : (r.recording record).settle d n o = (r.settle d n o).recording record := by
  have hslot : (r.recording record).slot? d = r.slot? d := rfl
  simp only [settle, hslot]
  split
  · cases o <;> rfl
  · rfl

theorem advanceAll_recorded (ws : List (String × ConnectionId)) (r : Registry ω) :
    (r.recording record).advanceAll c.recorded ws =
      ((r.advanceAll c ws).1, (r.advanceAll c ws).2.recording record) := by
  induction ws generalizing r with
  | nil => rfl
  | cons w ws ih => simp only [advanceAll, advance_recorded, ih]

theorem settleAll_recorded (ws : List (String × ConnectionId)) (r : Registry ω) :
    (r.recording record).settleAll ws = (r.settleAll ws).recording record := by
  induction ws generalizing r with
  | nil => rfl
  | cons w ws ih =>
      have hout : (r.recording record).outcome? w.2 = r.outcome? w.2 := rfl
      simp only [settleAll, hout]
      split
      · rw [settle_recorded, ih]
      · rw [ih]

theorem drain_recorded (rounds : Nat) (ws : List (String × ConnectionId)) (r : Registry ω) :
    (r.recording record).drain c.recorded rounds ws =
      ((r.drain c rounds ws).1, (r.drain c rounds ws).2.recording record) := by
  induction rounds generalizing ws r with
  | zero => rfl
  | succ rounds ih =>
      simp only [drain, advanceAll_recorded]
      split
      · rfl
      · rcases r.advanceAll c ws with ⟨_ | _, s⟩
        · rfl
        · simp only [settleAll_recorded]
          exact ih _ _

/-! ## Closing -/

/-- What is asked over the recorded connector is written down. -/
theorem Asking.written {closes closes' : Closes} {asked : List CloseCall}
    {r s : Registry (ω × List CloseCall)} (h : Asking c.recorded closes r asked closes' s) :
    s.world.2 = r.world.2 ++ asked := by
  induction h with
  | done => rw [List.append_nil]
  | start _ ih =>
    rw [ih, ← List.singleton_append, ← List.append_assoc]
    rfl
  | ask _ _ _ ih =>
    rw [ih, ← List.singleton_append, ← List.append_assoc]
    rfl

/-- The same is asked over the connector itself. -/
theorem Asking.bare {closes closes' : Closes} {asked : List CloseCall}
    {r s : Registry (ω × List CloseCall)} (h : Asking c.recorded closes r asked closes' s) :
    Asking c closes r.bare asked closes' s.bare := by
  induction h with
  | done => exact .done
  | start _ ih => exact .start ih
  | ask hi ha _ ih => exact .ask hi ha ih

/-- A poll writes down the close calls that it asks. -/
theorem askTogether_recorded (closes : Closes) (r : Registry ω) :
    ∃ asked, Asking c closes r asked (r.askTogether c closes).1 (r.askTogether c closes).2 ∧
      (r.recording record).askTogether c.recorded closes =
        ((r.askTogether c closes).1, (r.askTogether c closes).2.recording (record ++ asked)) := by
  have hsame : r = (r.recording record).bare := rfl
  obtain ⟨htold, hleft⟩ := c.recorded_extends.lockstep.askTogether hsame closes
  obtain ⟨asked, hasked⟩ := askTogether_asking (c := c.recorded) closes (r.recording record)
  have hrecord := hasked.written
  have hbare := hasked.bare
  rw [htold, ← hleft] at hbare
  refine ⟨asked, hbare, Prod.ext htold ?_⟩
  have hworld : (r.recording record).world.2 = record := rfl
  rw [hleft, ← hworld, ← hrecord]
  rfl

theorem finishClose_recorded (closes : Closes) (r : Registry ω) :
    (r.recording record).finishClose closes =
      ((r.finishClose closes).1, (r.finishClose closes).2.recording record) := by
  simp only [finishClose]
  split
  · split <;> rfl
  · rfl

end Registry

end Gateway
