import Gateway.Registry.Closes

/-!
# Closing every connection

A closing task first drains the attempts in flight: it collects them, waits until each
has its outcome, settles them, and looks again, since others may have launched more
meanwhile. When a look finds none it takes all established connections out of the
registry and goes on to their close calls, in the order of names. Every call is waited
for, also when some fail, and the failures are told together.

Rounds of draining are counted: within one poll there is the round that the task was
waiting in, at most one for attempts launched during that wait, and the look that
finds none.

A round asks each of its attempts in every poll. If it asked some of them only, those that
were woken, nothing else would be seen of the others than of attempts whose connect calls
have not answered yet, and a connect call may take any time. A look has the attempts in the
order in which their slots were filled, but they could be in any order: a connector may answer
what it likes whoever is asked first, a round is over only when all have answered, and beside
that the order shows in that of the records of attempts that failed and nowhere else.
-/

namespace Gateway

/-- Where a closing task stands. -/
inductive Closing where
  /-- It was not polled yet. -/
  | fresh
  /-- It waits for the attempts that it collected. -/
  | draining (waiting : List (String × ConnectionId))
  /-- It has taken the connections and waits for their close calls. -/
  | closing (closes : Closes)

namespace Registry

variable {ω : Type} (c : Connector ω)

/-! ## Draining -/

/-- Asks all attempts that are waited for; tells whether each has its outcome. -/
def advanceAll : List (String × ConnectionId) → Registry ω → Bool × Registry ω
  | [], r => (true, r)
  | (_, n) :: ws, r =>
    let (outcome, r) := r.advance c n
    let (rest, r) := advanceAll ws r
    (outcome.isSome && rest, r)

/-- Settles the attempts that were waited for. -/
def settleAll : List (String × ConnectionId) → Registry ω → Registry ω
  | [], r => r
  | (database, n) :: ws, r =>
    match r.outcome? n with
    | some outcome => settleAll ws (r.settle database n outcome)
    | none => settleAll ws r

/-- Rounds of draining from the attempts that are waited for. Gives those that have to
be waited for on, or nothing when no attempt is in flight. -/
def drain : Nat → List (String × ConnectionId) → Registry ω →
    Option (List (String × ConnectionId)) × Registry ω
  | 0, ws, r => (some ws, r)
  | rounds + 1, ws, r =>
    if ws.isEmpty then (none, r)
    else
      match r.advanceAll c ws with
      | (false, r) => (some ws, r)
      | (true, r) =>
        let r := r.settleAll ws
        drain rounds r.inFlight r

/-- The rounds of one poll. -/
def maxRounds : Nat := 3

/-! ## Closing -/

/-- Some connections failed to close. -/
def closeFailRecord (failed attempted : Nat) : Log.Record :=
  ⟨.warn, Log.connectionTarget,
    Decimal.ofNat failed ++ " of " ++ Decimal.ofNat attempted ++ " connections failed to close"⟩

/-- Takes the established connections out, in the order of names. -/
def takeEstablished (r : Registry ω) : List (String × ConnectionId) × Registry ω :=
  let taken := sortByName r.established
  (taken, { r with
    slots := r.slots.filter fun e =>
      match e.2 with
      | .connecting _ => true
      | .established _ => false
    takes := r.takes ++ [taken] })

def closeFailures (calls : List CloseCall) : List CloseFailure :=
  calls.filterMap fun call =>
    match call.answer with
    | some (.error f) => some ⟨call.database, f.text⟩
    | _ => none

def finishClose (closes : Closes) (r : Registry ω) :
    Progress Closing (Except Failure Unit) × Registry ω :=
  if closes.isOver then
    let failures := closeFailures closes.calls
    if failures.isEmpty then (.ready (.ok ()), r)
    else
      (.ready (.error (.close closes.calls.length failures)),
        r.say (closeFailRecord failures.length closes.calls.length))
  else (.pending (.closing closes), r)

def goOnClosing (closes : Closes) (r : Registry ω) :
    Progress Closing (Except Failure Unit) × Registry ω :=
  let (closes, r) := r.askTogether c closes
  r.finishClose closes

/-! ## The task -/

def drainAndClose (ws : List (String × ConnectionId)) (r : Registry ω) :
    Progress Closing (Except Failure Unit) × Registry ω :=
  match r.drain c maxRounds ws with
  | (some ws, r) => (.pending (.draining ws), r)
  | (none, r) =>
    let (taken, r) := r.takeEstablished
    r.goOnClosing c ⟨[], taken⟩

def pollClose (stage : Closing) (r : Registry ω) :
    Progress Closing (Except Failure Unit) × Registry ω :=
  match stage with
  | .fresh => r.drainAndClose c r.inFlight
  | .draining ws => r.drainAndClose c ws
  | .closing closes => r.goOnClosing c closes

end Registry

end Gateway
