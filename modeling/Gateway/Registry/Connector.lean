import Gateway.Failure
import Gateway.Query.Native

/-!
# Connectors

A connector opens connections and answers calls on them. Every call takes some time:
it is started once and then asked again until it answers. What decides the answers is
the connector's own state, its world, which may also change between the questions, so
one connector can answer, delay and fail each call in any way.

A close call that does not answer at once is to wake who asked it, when there is reason to
ask it again; it may do so while it is being asked. Nobody waits for other calls in a way
in which their waking would matter.

A connection is known by the number of the connect call that opened it; failed calls
have numbers too. The calls that were started are kept in a trace, in their order.
-/

namespace Gateway

/-- A connection, by the number of its connect call. -/
abbrev ConnectionId : Type := Nat

/-- One question to a call: its answer, if it has one by now, and the world after it. -/
abbrev Question (ω α : Type) : Type := ω → Option (Except Failure α) × ω

/-- The calls that a connector takes, as they are asked again and again. -/
structure Connector (ω : Type) where
  /-- Opens a connection to a database under a URL. -/
  connect : ConnectionId → (database url : String) → Question ω Unit
  /-- Finds the documents of a collection that a query wants. -/
  find : ConnectionId → (database collection : String) → NativeQuery → Question ω (List Document)
  /-- Counts the documents of a collection that a filter matches. -/
  count : ConnectionId → (database collection : String) → Document → Question ω UInt64
  /-- Closes a connection. -/
  close : ConnectionId → (database : String) → Question ω Unit
  /-- The connections whose close calls are woken, in the order in which they were. Asking a
  close call makes it one that is not, unless it is woken by that. -/
  woken : ω → List ConnectionId

/-- A call at the moment it is started. -/
inductive Event where
  | connect (n : ConnectionId) (database url : String)
  | find (n : ConnectionId) (collection : String) (query : NativeQuery)
  | count (n : ConnectionId) (collection : String) (filter : Document)
  | close (n : ConnectionId) (database : String)

/-- What a poll of a task in state `σ` gives: the state to go on from, or a result. -/
inductive Progress (σ α : Type) where
  | pending (next : σ)
  | ready (result : α)

end Gateway
