import Gateway.Registry.Shutdown
import Gateway.Task.Request

/-!
# Tasks over one registry

A task does nothing until it is polled, and between two polls anything may happen to
the registry and to the world of its connector. Several tasks may have one name: a poll
by name is one of the task that was started first, and dropping a name drops them all.
A run is any sequence of starting, polling and dropping tasks and of changes of that
world; every poll of every task is one atomic step of it.
-/

namespace Gateway

/-- What a task is started for. -/
inductive Job where
  | acquire (database : String)
  | request (kind : RequestKind) (req : Request)
  | close

/-- A task under way. -/
inductive Task where
  | acquire (database : String) (stage : Acquiring)
  | request (kind : RequestKind) (req : Request) (stage : Requesting)
  | close (stage : Closing)

/-- What a task ends with. -/
inductive Outcome where
  | connection (n : ConnectionId)
  | answer (a : Answer)
  | closed

namespace Task

/-- A task that was not polled yet. -/
def ofJob : Job → Task
  | .acquire database => .acquire database .fresh
  | .request kind req => .request kind req .fresh
  | .close => .close .fresh

variable {ω : Type}

/-- The progress of a part of a task as progress of the task. -/
def lift {σ α : Type} (next : σ → Task) (result : α → Outcome)
    (p : Progress σ (Except Failure α) × Registry ω) :
    Progress Task (Except Failure Outcome) × Registry ω :=
  match p with
  | (.pending stage, r) => (.pending (next stage), r)
  | (.ready a, r) => (.ready (a.map result), r)

def poll (c : Connector ω) (t : Task) (r : Registry ω) :
    Progress Task (Except Failure Outcome) × Registry ω :=
  match t with
  | .acquire database stage => lift (.acquire database) .connection (r.pollAcquire c database stage)
  | .request kind req stage => lift (.request kind req) .answer (r.pollRequest c kind req stage)
  | .close stage => lift .close (fun _ => .closed) (r.pollClose c stage)

end Task

/-! ## Runs -/

/-- A registry and the tasks over it, in the order in which they were started. -/
structure Machine (ω : Type) where
  registry : Registry ω
  tasks : List (String × Task)

/-- One step of a run. -/
inductive Action (ω : Type) where
  | start (id : String) (job : Job)
  | poll (id : String)
  | drop (id : String)
  /-- The world of the connector changes on its own. -/
  | change (f : ω → ω)

/-- What a poll of a task by its name tells. -/
inductive Reply where
  | pending
  | ready (result : Except Failure Outcome)
  | noTask

namespace Machine

variable {ω : Type}

/-- A machine without tasks. -/
def initial (address : BaseAddress) (world : ω) : Machine ω := ⟨.initial address world, []⟩

/-- Starts a task; nothing of it runs yet. -/
def start (id : String) (job : Job) (m : Machine ω) : Machine ω :=
  { m with tasks := m.tasks ++ [(id, .ofJob job)] }

/-- Polls the first task of a name; a task that is ready is gone. -/
def poll (c : Connector ω) (id : String) (m : Machine ω) : Reply × Machine ω :=
  let before := m.tasks.takeWhile fun t => t.1 ≠ id
  match m.tasks.dropWhile fun t => t.1 ≠ id with
  | [] => (.noTask, m)
  | (_, task) :: after =>
    match task.poll c m.registry with
    | (.pending next, r) => (.pending, ⟨r, before ++ (id, next) :: after⟩)
    | (.ready result, r) => (.ready result, ⟨r, before ++ after⟩)

/-- Drops the tasks of a name at the points where they stand. -/
def drop (id : String) (m : Machine ω) : Machine ω :=
  { m with tasks := Entries.erase id m.tasks }

def change (f : ω → ω) (m : Machine ω) : Machine ω :=
  { m with registry := { m.registry with world := f m.registry.world } }

/-- One step of a run. -/
def act (c : Connector ω) (m : Machine ω) : Action ω → Machine ω
  | .start id job => m.start id job
  | .poll id => (m.poll c id).2
  | .drop id => m.drop id
  | .change f => m.change f

def run (c : Connector ω) (m : Machine ω) (actions : List (Action ω)) : Machine ω :=
  actions.foldl (act c) m

@[simp]
theorem run_nil (c : Connector ω) (m : Machine ω) : m.run c [] = m := rfl

@[simp]
theorem run_cons (c : Connector ω) (m : Machine ω) (a : Action ω) (as : List (Action ω)) :
    m.run c (a :: as) = (m.act c a).run c as := rfl

theorem run_append (c : Connector ω) (m : Machine ω) (as bs : List (Action ω)) :
    m.run c (as ++ bs) = (m.run c as).run c bs := by
  simp [run, List.foldl_append]

/-- Polls by each of some names in turn; gives the results of the tasks that became
ready, in order. -/
def pass (c : Connector ω) : List String → Machine ω →
    List (String × Except Failure Outcome) × Machine ω
  | [], m => ([], m)
  | id :: ids, m =>
    let (reply, m) := m.poll c id
    let (rest, m) := pass c ids m
    match reply with
    | .ready result => ((id, result) :: rest, m)
    | _ => (rest, m)

/-- Polls by the names of all tasks in passes until a pass makes none ready. -/
def settleTasks (c : Connector ω) : Nat → Machine ω →
    List (String × Except Failure Outcome) × Machine ω
  | 0, m => ([], m)
  | passes + 1, m =>
    match m.pass c (Entries.keys m.tasks) with
    | ([], m) => ([], m)
    | (done, m) =>
      let (rest, m) := settleTasks c passes m
      (done ++ rest, m)

/-- Polls all tasks until none becomes ready any more. Each pass but the last takes at
least one task away. -/
def runAll (c : Connector ω) (m : Machine ω) :
    List (String × Except Failure Outcome) × Machine ω :=
  m.settleTasks c (m.tasks.length + 1)

end Machine

end Gateway
