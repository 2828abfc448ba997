import Gateway.Proofs.Registry.Beside
import Gateway.Proofs.Task.Owed
import Gateway.Proofs.Task.Runs

/-!
# What a requesting task does in its visits

Of each visit three things are kept in order: how the acquire calls that came to their end in
it ended, the finds and counts that were started, and the answers that they got. The first are
read off the acquire calls of the poll, the second off the trace. An answer is in no registry;
so the visit is looked at over a connector that writes the answers of finds and counts down
beside the world (`Connector.queried`) and is otherwise the same.
-/

namespace Gateway

open Registry

variable {ω : Type} {c : Connector ω}

/-! ## Calls and their answers -/

/-- A find or a count, as it is started. -/
inductive Call where
  | find (n : ConnectionId) (collection : String) (query : NativeQuery)
  | count (n : ConnectionId) (collection : String) (filter : Document)

/-- The find or count that an event starts. -/
def Event.call? : Event → Option Call
  | .find n collection query => some (.find n collection query)
  | .count n collection filter => some (.count n collection filter)
  | _ => none

/-- An answer of a find or a count. -/
inductive CallAnswer where
  | found (n : ConnectionId) (collection : String) (query : NativeQuery)
      (answer : Except Failure (List Document))
  | counted (n : ConnectionId) (collection : String) (filter : Document)
      (answer : Except Failure UInt64)

/-- The call that was answered. -/
def CallAnswer.call : CallAnswer → Call
  | .found n collection query _ => .find n collection query
  | .counted n collection filter _ => .count n collection filter

def failure? {α : Type} : Except Failure α → Option Failure
  | .error f => some f
  | .ok _ => none

def CallAnswer.failure? : CallAnswer → Option Failure
  | .found _ _ _ answer => Gateway.failure? answer
  | .counted _ _ _ answer => Gateway.failure? answer

/-- A connector that also writes down what its finds and counts answer. -/
def Connector.queried (c : Connector ω) : Connector (ω × List CallAnswer) where
  connect n database url w :=
    let (answer, world) := c.connect n database url w.1
    (answer, world, w.2)
  find n database collection query w :=
    let (answer, world) := c.find n database collection query w.1
    (answer, world, w.2 ++ (answer.map (.found n collection query)).toList)
  count n database collection filter w :=
    let (answer, world) := c.count n database collection filter w.1
    (answer, world, w.2 ++ (answer.map (.counted n collection filter)).toList)
  close n database w :=
    let (answer, world) := c.close n database w.1
    (answer, world, w.2)
  woken w := c.woken w.1

theorem Connector.queried_extends (c : Connector ω) : c.queried.Extends c := by
  constructor <;> intros <;> rfl

/-! ## One visit -/

/-- How an acquire call ends, if it does with this poll. -/
def Acquisition.end? (c : Connector ω) (a : Acquisition ω) :
    Option (Except Failure ConnectionId) :=
  match a.progress c with
  | .pending _ => none
  | .ready result => some result

/-- What is kept of a task: the ends of its acquire calls, the finds and counts that it
started, and their answers. -/
@[ext]
structure History where
  acquired : List (Except Failure ConnectionId)
  issued : List Call
  answered : List CallAnswer

namespace History

def empty : History := ⟨[], [], []⟩

def append (H K : History) : History :=
  ⟨H.acquired ++ K.acquired, H.issued ++ K.issued, H.answered ++ K.answered⟩

instance : Append History := ⟨append⟩

@[simp]
theorem append_acquired (H K : History) : (H ++ K).acquired = H.acquired ++ K.acquired := rfl

@[simp]
theorem append_issued (H K : History) : (H ++ K).issued = H.issued ++ K.issued := rfl

@[simp]
theorem append_answered (H K : History) : (H ++ K).answered = H.answered ++ K.answered := rfl

@[simp]
theorem append_empty (H : History) : H ++ empty = H := by
  ext1 <;> exact List.append_nil _

theorem append_assoc (H K L : History) : H ++ K ++ L = H ++ (K ++ L) := by
  ext1 <;> exact List.append_assoc ..

end History

namespace Visit

/-- The ends of the acquire calls that end with a visit. -/
def acquired (c : Connector ω) (v : Visit ω) : List (Except Failure ConnectionId) :=
  (v.task.acquisitions c v.registry).filterMap (Acquisition.end? c)

/-- The finds and counts that a visit starts. -/
def issued (c : Connector ω) (v : Visit ω) : List Call :=
  ((v.after c).trace.drop v.registry.trace.length).filterMap Event.call?

/-- The visit over the connector that writes answers down, with nothing written down yet. -/
def queried (v : Visit ω) : Visit (ω × List CallAnswer) :=
  ⟨v.task, { v.registry with world := (v.registry.world, []) }⟩

/-- The answers of finds and counts that a visit gets. -/
def answered (c : Connector ω) (v : Visit ω) : List CallAnswer :=
  (v.queried.after c.queried).world.2

def history (c : Connector ω) (v : Visit ω) : History :=
  ⟨v.acquired c, v.issued c, v.answered c⟩

end Visit

/-- The history of a task over its visits. -/
def historyOf (c : Connector ω) (visits : List (Visit ω)) : History :=
  ⟨visits.flatMap (Visit.acquired c), visits.flatMap (Visit.issued c),
    visits.flatMap (Visit.answered c)⟩

theorem historyOf_snoc (vs : List (Visit ω)) (v : Visit ω) :
    historyOf c (vs ++ [v]) = historyOf c vs ++ v.history c := by
  ext1 <;> simp [historyOf, Visit.history]

/-! ## Steps -/

/-- What some steps add to the history, over the connector that writes answers down; no connection
is taken. -/
structure Adds (c : Connector ω) (as : List (Acquisition ω))
    (R S : Registry (ω × List CallAnswer)) (K : History) : Prop where
  acquired : as.filterMap (Acquisition.end? c) = K.acquired
  issued : S.trace.filterMap Event.call? = R.trace.filterMap Event.call? ++ K.issued
  answered : S.world.2 = R.world.2 ++ K.answered
  takes : S.takes = R.takes

namespace Adds

variable {as bs : List (Acquisition ω)} {R S T : Registry (ω × List CallAnswer)} {H K : History}

theorem trans (h : Adds c as R S H) (h' : Adds c bs S T K) : Adds c (as ++ bs) R T (H ++ K) := by
  constructor
  · rw [List.filterMap_append, h.acquired, h'.acquired]
    rfl
  · rw [h'.issued, h.issued, List.append_assoc]
    rfl
  · rw [h'.answered, h.answered, List.append_assoc]
    rfl
  · rw [h'.takes, h.takes]

/-- Records in the log are not kept. -/
theorem log (R : Registry (ω × List CallAnswer)) (log : List Log.Record) :
    Adds c [] R { R with log } .empty :=
  ⟨rfl, (List.append_nil _).symm, (List.append_nil _).symm, rfl⟩

theorem note (R : Registry (ω × List CallAnswer)) {e : Event} {call : Call}
    (he : e.call? = some call) : Adds c [] R (R.note e) ⟨[], [call], []⟩ := by
  constructor
  · rfl
  · simp [Registry.note, he]
  · exact (List.append_nil _).symm
  · rfl

end Adds

/-! ## Acquiring -/

section Acquiring

variable (R : Registry (ω × List CallAnswer)) (d : String)

/-- Acquiring starts no find or count, and takes nothing. -/
theorem pollAcquire_adds (stage : Acquiring) :
    Adds c [⟨d, stage, R.bare⟩] R (R.pollAcquire c.queried d stage).2
      ⟨(Acquisition.end? c ⟨d, stage, R.bare⟩).toList, [], []⟩ := by
  have htrace : (R.pollAcquire c.queried d stage).2.trace.filterMap Event.call? =
      R.trace.filterMap Event.call? := by
    cases stage with
    | joined n => rw [pollAcquire, await_trace]
    | fresh =>
      simp only [pollAcquire]
      split
      · rfl
      · rw [await_trace]
        rfl
      · rw [await_trace]
        simp [launch, say, Event.call?]
  constructor
  · rcases h : Acquisition.end? c ⟨d, stage, R.bare⟩ with _ | result <;> simp [h]
  · simp [htrace]
  · rw [List.append_nil]
    exact pollAcquire_beside (fun _ _ _ _ => rfl) d stage R
  · exact (pollAcquire_leaves d stage R).2

/-- Writing answers down makes no difference to acquiring. -/
theorem pollAcquire_queried (stage : Acquiring) :
    (R.pollAcquire c.queried d stage).1 = (R.bare.pollAcquire c d stage).1 ∧
      (R.bare.pollAcquire c d stage).2 = (R.pollAcquire c.queried d stage).2.bare := by
  obtain ⟨htold, hleft⟩ :=
    c.queried_extends.lockstep.pollAcquire (rfl : R.bare = R.bare) d stage
  exact ⟨htold, hleft⟩

end Acquiring

end Gateway
