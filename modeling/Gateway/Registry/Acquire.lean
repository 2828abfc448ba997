import Gateway.Registry.Basic

/-!
# Acquiring a connection

A task that acquires a connection finds it established, joins the attempt in flight,
or launches one. From then on it knows its attempt by number, whatever becomes of the
slot. The poll that sees the outcome also settles the slot.
-/

namespace Gateway

/-- Where an acquiring task stands. -/
inductive Acquiring where
  /-- It was not polled yet. -/
  | fresh
  /-- It waits for an attempt. -/
  | joined (n : ConnectionId)
deriving DecidableEq, Repr

namespace Registry

variable {ω : Type} (c : Connector ω)

def await (database : String) (n : ConnectionId) (r : Registry ω) :
    Progress Acquiring (Except Failure ConnectionId) × Registry ω :=
  match r.advance c n with
  | (none, r) => (.pending (.joined n), r)
  | (some outcome, r) => (.ready (outcome.map fun _ => n), r.settle database n outcome)

/-- Polls a task that acquires the connection of a database. -/
def pollAcquire (database : String) (stage : Acquiring) (r : Registry ω) :
    Progress Acquiring (Except Failure ConnectionId) × Registry ω :=
  match stage with
  | .joined n => r.await c database n
  | .fresh =>
    let r := r.say (fetchRecord database)
    match r.slot? database with
    | some (.established n) => (.ready (.ok n), r)
    | some (.connecting n) => r.await c database n
    | none => (r.launch database).await c database r.attempts.length

end Registry

end Gateway
