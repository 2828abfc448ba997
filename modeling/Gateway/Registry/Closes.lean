import Gateway.Registry.Basic

/-!
# Close calls together

The close calls of the connections that a closing task has taken are made together, in the
order of names, by one of two rules. At most `togetherBound` calls are asked side by side:
the first poll starts them all, and every further poll asks all that have not answered.

More calls than that are asked in turn. Those that were not started yet are due before all
others, in their order, and then those that were woken. A poll asks what is due until
nothing is, and an answer in between lets it go on. But since the last answer it asks
no more calls than there were to answer, and it ends when two of these calls were woken
while they were asked, so as not to ask them over and over. So a poll may end with calls that
were not started: their connections are taken, and later polls start their close calls.
-/

namespace Gateway

/-- A close call that was started, and its answer once it is there. -/
structure CloseCall where
  database : String
  connection : ConnectionId
  answer : Option (Except Failure Unit)

/-- The close calls of a closing task, in the order of names. -/
structure Closes where
  /-- Those that were started. -/
  calls : List CloseCall
  /-- The connections whose close calls are still to be started. -/
  queued : List (String × ConnectionId)

namespace Closes

/-- How many there are. -/
def size (closes : Closes) : Nat := closes.calls.length + closes.queued.length

/-- How many have not answered. -/
def unanswered (closes : Closes) : Nat :=
  (closes.calls.countP fun call => !call.answer.isSome) + closes.queued.length

/-- Whether all have answered. -/
def isOver (closes : Closes) : Bool :=
  closes.queued.isEmpty && closes.calls.all fun call => call.answer.isSome

end Closes

namespace Registry

variable {ω : Type} (c : Connector ω)

/-- A connection is about to be closed. -/
def closeRecord (database : String) : Log.Record :=
  ⟨.trace, Log.connectionTarget, "closing connection \"" ++ database ++ "\""⟩

def askClose (database : String) (n : ConnectionId) (r : Registry ω) : CloseCall × Registry ω :=
  let (answer, world) := c.close n database r.world
  (⟨database, n, answer⟩, { r with world })

/-- Starts the close call of a connection and asks it. -/
def startClose (database : String) (n : ConnectionId) (r : Registry ω) :
    CloseCall × Registry ω :=
  ((r.say (closeRecord database)).note (.close n database)).askClose c database n

/-! ## Side by side -/

def startCloses : List (String × ConnectionId) → Registry ω → List CloseCall × Registry ω
  | [], r => ([], r)
  | (database, n) :: es, r =>
    let (call, r) := r.startClose c database n
    let (calls, r) := startCloses es r
    (call :: calls, r)

/-- Asks the close calls that have not answered. -/
def askCloses : List CloseCall → Registry ω → List CloseCall × Registry ω
  | [], r => ([], r)
  | call :: calls, r =>
    let (call, r) := match call.answer with
      | some _ => (call, r)
      | none => r.askClose c call.database call.connection
    let (calls, r) := askCloses calls r
    (call :: calls, r)

/-- Starts all calls, or asks them all when they were started before. -/
def askSideBySide (closes : Closes) (r : Registry ω) : Closes × Registry ω :=
  match closes.queued with
  | [] =>
    let (calls, r) := r.askCloses c closes.calls
    (⟨calls, []⟩, r)
  | queued =>
    let (calls, r) := r.startCloses c queued
    (⟨closes.calls ++ calls, []⟩, r)

/-! ## In turn -/

/-- The place of the call that was woken first of those that wait. -/
def wokenCall? (calls : List CloseCall) (r : Registry ω) : Option Nat :=
  (c.woken r.world).findSome? fun n =>
    calls.findIdx? fun call => call.connection = n && !call.answer.isSome

/-- Asks the call that is due, if there is one: the next that is to be started, or else the
next that was woken. -/
def askDue (closes : Closes) (r : Registry ω) : Option (CloseCall × Closes × Registry ω) :=
  match closes.queued with
  | (database, n) :: queued =>
    let (call, r) := r.startClose c database n
    some (call, ⟨closes.calls ++ [call], queued⟩, r)
  | [] =>
    (r.wokenCall? c closes.calls).bind fun i => closes.calls[i]?.map fun call =>
      let (call, r) := r.askClose c call.database call.connection
      (call, ⟨closes.calls.set i call, []⟩, r)

/-- Asks calls that are due until one answers, and tells whether one did. Not more than
`limit` calls are asked, and none any more when two were woken while they were asked. -/
def askUntilAnswer : (limit awake : Nat) → Closes → Registry ω → Bool × Closes × Registry ω
  | 0, _, closes, r => (false, closes, r)
  | limit + 1, awake, closes, r =>
    match r.askDue c closes with
    | none => (false, closes, r)
    | some (call, closes, r) =>
      if call.answer.isSome then (true, closes, r)
      else
        let awake := if call.connection ∈ c.woken r.world then awake + 1 else awake
        if awake < 2 then askUntilAnswer limit awake closes r else (false, closes, r)

/-- Goes from answer to answer, of which there are as many as calls that have none. -/
def askInTurn : (unanswered : Nat) → Closes → Registry ω → Closes × Registry ω
  | 0, closes, r => (closes, r)
  | unanswered + 1, closes, r =>
    match r.askUntilAnswer c (unanswered + 1) 0 closes with
    | (true, closes, r) => askInTurn unanswered closes r
    | (false, closes, r) => (closes, r)

/-! ## Together -/

/-- How many calls are asked side by side at most. -/
def togetherBound : Nat := 30

/-- What a poll does for the close calls of a task. -/
def askTogether (closes : Closes) (r : Registry ω) : Closes × Registry ω :=
  if closes.size ≤ togetherBound then r.askSideBySide c closes
  else r.askInTurn c closes.unanswered closes

end Registry

end Gateway
