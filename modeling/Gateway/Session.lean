import Gateway.Store.Memory
import Gateway.Task.Basic

/-!
# Data sources and sessions

A data source is a checked topology with its registry and the tasks over it. A session
drives a data source over a store in memory by hand, one step at a time: steps on the
store, on its gates and failures, and on tasks.
-/

namespace Gateway

/-- A data source over a connector with the world `ω`. -/
structure DataSource (ω : Type) where
  topology : Topology
  machine : Machine ω

namespace DataSource

variable {ω : Type}

/-- The data source of a configuration. Nothing is connected yet. -/
def create (config : SourceConfig) (world : ω) : Except Failure (DataSource ω) :=
  config.resolve.map fun t => ⟨t, .initial (.ofTopology t) world⟩

def registry (d : DataSource ω) : Registry ω := d.machine.registry

/-- The debugging view. The topology in it shows credentials as they are. -/
def debug (d : DataSource ω) : String :=
  Text.debugRecord "DataSource" [
    ("topology", d.topology.debug),
    ("registry", d.registry.debug),
    ("processor", Text.debugRecord "Processor" [("registry", d.registry.debug)])]

end DataSource

/-! ## Sessions -/

/-- A data source over a store in memory. -/
abbrev Session : Type := DataSource Store

namespace Session

inductive Step where
  | insert (database collection : String) (docs : List Document)
  | shut (key : String)
  | unshut (key : String)
  | fail (key : String) (f : Failure)
  | heal (key : String)
  /-- Starts a task and polls it once, unless it is to be started lazily. -/
  | start (id : String) (job : Job) (lazily : Bool)
  | poll (id : String)
  | runAll
  | drop (id : String)

/-- What a step tells. -/
inductive Told where
  | nothing
  | flag (b : Bool)
  | lazily
  | polled (reply : Reply)
  | finished (results : List (String × Except Failure Outcome))
  | dropped (n : Nat)

def change (f : Store → Store) (s : Session) : Session := { s with machine := s.machine.change f }

def perform (s : Session) : Step → Told × Session
  | .insert database collection docs => (.nothing, s.change (.insert database collection docs))
  | .shut key => (.flag (s.registry.world.isOpen key), s.change (.shutGate key))
  | .unshut key => (.nothing, s.change (.openGate key))
  | .fail key f => (.nothing, s.change (.fail key f))
  | .heal key => (.flag (s.registry.world.isFailing key), s.change (.heal key))
  | .start id job lazily =>
    let m := s.machine.start id job
    if lazily then (.lazily, { s with machine := m })
    else
      let (reply, m) := m.poll Store.connector id
      (.polled reply, { s with machine := m })
  | .poll id =>
    let (reply, m) := s.machine.poll Store.connector id
    (.polled reply, { s with machine := m })
  | .runAll =>
    let (results, m) := s.machine.runAll Store.connector
    (.finished results, { s with machine := m })
  | .drop id =>
    (.dropped ((Entries.keys s.machine.tasks).count id), { s with machine := s.machine.drop id })

end Session

end Gateway
