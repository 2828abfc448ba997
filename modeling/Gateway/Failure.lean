import Gateway.Json.Fault

/-!
# Failures

What can go wrong on the way from a configuration to an answer, by the stage that
failed. A failure is a plain value and is handed to every waiter of a shared attempt
unchanged. Its text is made in one place.
-/

namespace Gateway

structure CloseFailure where
  database : String
  message : String
deriving DecidableEq, Repr

/-- A failure by the stage in which it arose. -/
inductive Failure where
  | config (message : String)
  | connect (database message : String)
  | query (message : String)
  | close (attempted : Nat) (failures : List CloseFailure)
  | json (message : String)
  | toml (message : String)
deriving DecidableEq, Repr

namespace Failure

/-- The failed connections, in their order. -/
def closeText (failures : List CloseFailure) : String :=
  "; ".intercalate (failures.map fun f => f.database ++ ": " ++ f.message)

def text : Failure → String
  | .config message => "Invalid configuration: " ++ message
  | .connect database message => "Connect error for database " ++ database ++ ": " ++ message
  | .query message => "Query error: " ++ message
  | .close attempted failures =>
    "Close error: " ++ Decimal.ofNat failures.length ++ " of " ++ Decimal.ofNat attempted
      ++ " connections failed to close (" ++ closeText failures ++ ")"
  | .json message => "Serde JSON: " ++ message
  | .toml message => "TOML: " ++ message

def ofFault (f : Json.Fault) : Failure := .json f.message

/-- A failed connect as it reaches the waiters: a connect failure stays as it is, and
any other is told as the connect failure of its database. -/
def asConnect (database : String) : Failure → Failure
  | .connect d m => .connect d m
  | f => .connect database f.text

end Failure

end Gateway
