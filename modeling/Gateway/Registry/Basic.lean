import Gateway.Address.Basic
import Gateway.Entries
import Gateway.Registry.Connector

/-!
# The registry of connections

One slot for each database name: a connect attempt in flight, or an established
connection. An attempt is shared: whoever waits for the name asks its one connect call
again, and its outcome, once there, is the same for all of them. The number of an
attempt is that of its connect call, so it also names the connection that comes out.

An attempt and its slot go separate ways. The outcome stays with the attempt for those
who still wait for it; the slot moves forward only once, and only if it still holds
that very attempt (`settle`): to the established connection, or, after a failure, to
nothing, so that the next one who asks connects afresh.

Attempts are numbered without bound, so no two have one number. A counter of 64 bits would
do the same for as long as there are fewer than 2 ^ 64 connect calls.
-/

namespace Gateway

/-- What the registry holds for a database name. -/
inductive Slot where
  | connecting (n : ConnectionId)
  | established (n : ConnectionId)
deriving DecidableEq, Repr

/-- A connect attempt, by its number's place in the list of attempts. -/
structure Attempt where
  database : String
  /-- The outcome, the same for all who wait, once the connect call has answered. -/
  outcome : Option (Except Failure Unit)

/-- A registry together with the world of its connector and what happened so far. -/
structure Registry (ω : Type) where
  address : BaseAddress
  world : ω
  slots : List (String × Slot)
  attempts : List Attempt
  /-- What closing tasks have taken out so far, with one list for each that came to it. -/
  takes : List (List (String × ConnectionId))
  /-- The calls started so far. -/
  trace : List Event
  /-- The log records so far. -/
  log : List Log.Record

namespace Registry

variable {ω : Type}

/-- A registry that has not been asked for anything. -/
def initial (address : BaseAddress) (world : ω) : Registry ω := ⟨address, world, [], [], [], [], []⟩

def slot? (r : Registry ω) (database : String) : Option Slot := Entries.get? database r.slots

/-- The outcome of an attempt, once it is there. -/
def outcome? (r : Registry ω) (n : ConnectionId) : Option (Except Failure Unit) :=
  r.attempts[n]?.bind Attempt.outcome

/-! ## Records -/

def say (record : Log.Record) (r : Registry ω) : Registry ω := { r with log := r.log ++ [record] }

def note (event : Event) (r : Registry ω) : Registry ω := { r with trace := r.trace ++ [event] }

/-- A connection is asked for. -/
def fetchRecord (database : String) : Log.Record :=
  ⟨.trace, Log.connectionTarget, "fetching connection for \"" ++ database ++ "\""⟩

/-- A connect call is started, under a URL without credentials. -/
def connectRecord (database shown : String) : Log.Record :=
  ⟨.info, Log.connectionTarget, "connecting to database " ++ database ++ " on " ++ shown⟩

/-- A connect attempt failed. -/
def failRecord (database : String) (f : Failure) : Log.Record :=
  ⟨.trace, Log.connectionTarget, "connect for \"" ++ database ++ "\" failed: " ++ f.text⟩

/-! ## Attempts -/

/-- Puts a new attempt into the slot of a database and starts its connect call. -/
def launch (database : String) (r : Registry ω) : Registry ω :=
  let n := r.attempts.length
  { r with
    slots := Entries.insert database (.connecting n) r.slots
    attempts := r.attempts ++ [⟨database, none⟩]
    log := r.log ++ [connectRecord database (r.address.redactedUrlFor database)]
    trace := r.trace ++ [.connect n database (r.address.urlFor database)] }

/-- Asks the connect call of an attempt, unless it has answered before. -/
def advance (c : Connector ω) (n : ConnectionId) (r : Registry ω) :
    Option (Except Failure Unit) × Registry ω :=
  match r.attempts[n]? with
  | none => (none, r)
  | some a =>
    match a.outcome with
    | some outcome => (some outcome, r)
    | none =>
      let (answer, world) := c.connect n a.database (r.address.urlFor a.database) r.world
      let outcome := answer.map fun e => e.mapError (Failure.asConnect a.database)
      (outcome, { r with world, attempts := r.attempts.set n ⟨a.database, outcome⟩ })

/-- Moves the slot of a database forward by the outcome of an attempt, if it still
holds that attempt. -/
def settle (database : String) (n : ConnectionId) (outcome : Except Failure Unit)
    (r : Registry ω) : Registry ω :=
  if r.slot? database = some (.connecting n) then
    match outcome with
    | .ok _ => { r with slots := Entries.insert database (.established n) r.slots }
    | .error f =>
      { r with
        slots := Entries.erase database r.slots
        log := r.log ++ [failRecord database f] }
  else r

/-! ## Views -/

/-- Names in ascending order. -/
def sortByName {α : Type} (es : List (String × α)) : List (String × α) :=
  es.mergeSort fun a b => a.1 ≤ b.1

/-- The attempts in flight, by database. -/
def inFlight (r : Registry ω) : List (String × ConnectionId) :=
  r.slots.filterMap fun e =>
    match e.2 with
    | .connecting n => some (e.1, n)
    | .established _ => none

/-- The established connections, by database. -/
def established (r : Registry ω) : List (String × ConnectionId) :=
  r.slots.filterMap fun e =>
    match e.2 with
    | .connecting _ => none
    | .established n => some (e.1, n)

/-- The databases with an established connection, in ascending order. -/
def connectedDatabases (r : Registry ω) : List String :=
  (sortByName r.established).map Prod.fst

/-- The debugging view, with the shared part of the address without credentials. -/
def debug (r : Registry ω) : String :=
  Text.debugRecord "Registry" [
    ("address", Text.quoted (r.address.redactedUrlFor "")),
    ("databases", Text.debugList Text.quoted r.connectedDatabases)]

end Registry

end Gateway
