/-!
# Levels of log records

Six thresholds from silence to everything, and the five levels of records between.
A threshold admits a record when the record is at least as urgent.
-/

namespace Gateway.Log

/-- A threshold; all but `off` are also levels of records. -/
inductive Level where
  | off
  | error
  | warn
  | info
  | debug
  | trace
deriving DecidableEq, Repr

namespace Level

/-- How much a threshold admits: the higher, the more. -/
def rank : Level → Nat
  | .off => 0
  | .error => 1
  | .warn => 2
  | .info => 3
  | .debug => 4
  | .trace => 5

def name : Level → String
  | .off => "OFF"
  | .error => "ERROR"
  | .warn => "WARN"
  | .info => "INFO"
  | .debug => "DEBUG"
  | .trace => "TRACE"

def admits (threshold level : Level) : Bool := level.rank ≤ threshold.rank

/-- The threshold of a name in any case of its letters. -/
def named? (name : String) : Option Level :=
  match String.ofList (name.toList.map Char.toLower) with
  | "off" => some .off
  | "error" => some .error
  | "warn" => some .warn
  | "info" => some .info
  | "debug" => some .debug
  | "trace" => some .trace
  | _ => none

/-- The threshold of a name; a missing or unknown one stands for `info`. -/
def ofName (name : Option String) : Level := (name.bind named?).getD .info

end Level

structure Record where
  level : Level
  target : String
  message : String
deriving DecidableEq, Repr

def connectionTarget : String := "docbridge::connection"

def queryTarget : String := "docbridge::query"

end Gateway.Log
