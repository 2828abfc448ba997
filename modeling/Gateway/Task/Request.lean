import Gateway.Bson.Display
import Gateway.Bson.Writer
import Gateway.Registry.Acquire

/-!
# Running a request

A request is compiled, a connection is acquired, and the find or the count runs on it.
A request for a page with the total acquires twice, once for each call, and between the
two the registry may have moved on. The first failure ends the request and is its
result, unchanged.
-/

namespace Gateway

/-! ## Responses -/

/-- A page of documents, with the total number of matches where that was asked for. -/
structure Response where
  totalCount : Option UInt64
  data : List Document

def Response.toJson (r : Response) : Json :=
  .object [
    ("totalCount", .ofOption .ofNatural r.totalCount),
    ("data", .array (r.data.map fun d => .object (Bson.toJsonEntries d)))]

/-- What a request is run for. -/
inductive RequestKind where
  | page
  | pageWithTotal
  | total
deriving DecidableEq, Repr

inductive Answer where
  | page (response : Response)
  | total (n : UInt64)

/-- Where a requesting task stands. -/
inductive Requesting where
  /-- It was not polled yet. -/
  | fresh
  | acquiringForFind (stage : Acquiring)
  | finding (n : ConnectionId)
  /-- The page is there if one was asked for. -/
  | acquiringForCount (data : Option (List Document)) (stage : Acquiring)
  | counting (n : ConnectionId) (data : Option (List Document))

/-! ## Records -/

def NativeOptions.debug (o : NativeOptions) : String :=
  let attributeText := fun (a : String) => Text.quoted a ++ ": Int32(1)"
  let sortText := fun (k : String × Int32) =>
    "(" ++ Text.quoted k.1 ++ ", " ++ Decimal.ofInt k.2.toInt ++ ")"
  Text.debugRecord "NativeOptions" [
    ("projection", Text.debugOption
      (fun names => "Document(\x7b" ++ ", ".intercalate (names.map attributeText) ++ "\x7d)")
      o.projection),
    ("limit", Text.debugOption (fun n => Decimal.ofInt n.toInt) o.limit),
    ("skip", Text.debugOption (fun n => Decimal.ofNat n.toNat) o.skip),
    ("sort", Text.debugOption (Text.debugList sortText) o.sort)]

namespace Request

def findRecord (r : Request) : Log.Record :=
  ⟨.trace, Log.queryTarget, "executing query on " ++ r.database ++ "." ++ r.collection
    ++ ": filter=" ++ Bson.displayDocument r.compile.filter
    ++ " options=" ++ r.compile.options.debug⟩

def countRecord (r : Request) : Log.Record :=
  ⟨.trace, Log.queryTarget, "executing count on " ++ r.database ++ "." ++ r.collection
    ++ ": filter=" ++ Bson.displayDocument r.compile.filter⟩

end Request

/-! ## The task -/

namespace Registry

variable {ω : Type} (c : Connector ω)

abbrev RequestStep (ω : Type) : Type :=
  Progress Requesting (Except Failure Answer) × Registry ω

/-- The answer of a count, with the page before it if there is one. -/
def countAnswer (data : Option (List Document)) (n : UInt64) : Answer :=
  match data with
  | none => .total n
  | some docs => .page ⟨some n, docs⟩

def askCount (req : Request) (n : ConnectionId) (data : Option (List Document))
    (r : Registry ω) : RequestStep ω :=
  let (answer, world) := c.count n req.database req.collection req.compile.filter r.world
  let r := { r with world }
  match answer with
  | none => (.pending (.counting n data), r)
  | some result => (.ready (result.map (countAnswer data)), r)

/-- Acquires the connection of the count and starts the count. -/
def acquireForCount (req : Request) (data : Option (List Document)) (stage : Acquiring)
    (r : Registry ω) : RequestStep ω :=
  match r.pollAcquire c req.database stage with
  | (.pending stage, r) => (.pending (.acquiringForCount data stage), r)
  | (.ready (.error f), r) => (.ready (.error f), r)
  | (.ready (.ok n), r) =>
    let r := (r.say req.countRecord).note (.count n req.collection req.compile.filter)
    r.askCount c req n data

def afterFind (kind : RequestKind) (req : Request) (docs : List Document) (r : Registry ω) :
    RequestStep ω :=
  match kind with
  | .pageWithTotal => r.acquireForCount c req (some docs) .fresh
  | _ => (.ready (.ok (.page ⟨none, docs⟩)), r)

def askFind (kind : RequestKind) (req : Request) (n : ConnectionId) (r : Registry ω) :
    RequestStep ω :=
  let (answer, world) := c.find n req.database req.collection req.compile r.world
  let r := { r with world }
  match answer with
  | none => (.pending (.finding n), r)
  | some (.error f) => (.ready (.error f), r)
  | some (.ok docs) => r.afterFind c kind req docs

/-- Acquires the connection of the find and starts the find. -/
def acquireForFind (kind : RequestKind) (req : Request) (stage : Acquiring) (r : Registry ω) :
    RequestStep ω :=
  match r.pollAcquire c req.database stage with
  | (.pending stage, r) => (.pending (.acquiringForFind stage), r)
  | (.ready (.error f), r) => (.ready (.error f), r)
  | (.ready (.ok n), r) =>
    let r := (r.say req.findRecord).note (.find n req.collection req.compile)
    r.askFind c kind req n

/-- Compiles a request and goes on to its first call. -/
def startRequest (kind : RequestKind) (req : Request) (r : Registry ω) : RequestStep ω :=
  let r := { r with log := r.log ++ req.compileRecords }
  match kind with
  | .total => r.acquireForCount c req none .fresh
  | _ => r.acquireForFind c kind req .fresh

def pollRequest (kind : RequestKind) (req : Request) (stage : Requesting) (r : Registry ω) :
    RequestStep ω :=
  match stage with
  | .fresh => r.startRequest c kind req
  | .acquiringForFind stage => r.acquireForFind c kind req stage
  | .finding n => r.askFind c kind req n
  | .acquiringForCount data stage => r.acquireForCount c req data stage
  | .counting n data => r.askCount c req n data

end Registry

end Gateway
