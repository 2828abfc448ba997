import Gateway.Registry.Connector
import Gateway.Entries
import Gateway.Bson.Reader

/-!
# A store in memory

The documents of databases and collections, behind a connector whose calls can be held
back and made to fail. Each of its calls has a key, its kind and its database. While
the gate of its key is shut a call does not answer; once it is open the call fails with
the failure set for its key, or else answers. A gate is only looked at when its call is asked,
so a close call that finds its gate shut is woken at once, to be asked again.

A connection sees the collections of its database as they were when its connect call
answered. A document matches a filter when each entry of the filter is a document, which
is not looked into, or is the same value as the document has under that name.
-/

namespace Gateway

abbrev Collections : Type := List (String × List Document)

structure Store where
  data : List (String × Collections)
  /-- The keys of the gates that are shut. -/
  shut : List String
  /-- The failures that are set, by key. -/
  failures : List (String × Failure)
  /-- What each open connection sees. -/
  views : List (ConnectionId × Collections)
  /-- The connections whose close calls have found their gates shut, by the last time. -/
  woken : List ConnectionId

namespace Store

/-- A store without documents, with every gate open. -/
def empty : Store := ⟨[], [], [], [], []⟩

/-! ## Documents -/

/-- The documents under a name, or none. -/
def documentsOf {α : Type} (name : String) (es : List (String × List α)) : List α :=
  (Entries.get? name es).getD []

def insert (database collection : String) (docs : List Document) (s : Store) : Store :=
  let collections := documentsOf database s.data
  let present := documentsOf collection collections
  let updated := Entries.insert collection (present ++ docs) collections
  { s with data := Entries.insert database updated s.data }

/-- Whether a document has what one entry of a filter asks for. -/
def entryMatches (doc : Document) (e : String × Bson) : Bool :=
  match e.2 with
  | .document _ => true
  | value =>
    match Entries.get? e.1 doc with
    | some present => present.sameValue value
    | none => false

def isMatch (filter doc : Document) : Bool := filter.all (entryMatches doc)

def matching (filter : Document) (docs : List Document) : List Document :=
  docs.filter (isMatch filter)

/-- The part of a list that a page wants. -/
def page {α : Type} (options : NativeOptions) (docs : List α) : List α :=
  let rest := docs.drop ((options.skip.map UInt64.toNat).getD 0)
  match options.limit with
  | none => rest
  | some n => rest.take n.toInt.toNat

/-- What a connection sees of a collection. -/
def seen (s : Store) (n : ConnectionId) (collection : String) : List Document :=
  match s.views.find? fun v => v.1 = n with
  | some v => documentsOf collection v.2
  | none => []

/-! ## Gates and failures -/

def shutGate (key : String) (s : Store) : Store := { s with shut := key :: s.shut.filter (· ≠ key) }

def openGate (key : String) (s : Store) : Store := { s with shut := s.shut.filter (· ≠ key) }

def fail (key : String) (f : Failure) (s : Store) : Store :=
  { s with failures := Entries.insert key f s.failures }

def heal (key : String) (s : Store) : Store := { s with failures := Entries.erase key s.failures }

def isOpen (s : Store) (key : String) : Bool := !s.shut.contains key

def isFailing (s : Store) (key : String) : Bool := (Entries.get? key s.failures).isSome

/-- The answer of a call under a key: none while its gate is shut, else the failure set
for it, else its own. -/
def guarded {α : Type} (key : String) (answer : Store → α × Store) : Question Store α := fun s =>
  if s.isOpen key then
    match Entries.get? key s.failures with
    | some f => (some (.error f), s)
    | none =>
      let (a, s) := answer s
      (some (.ok a), s)
  else (none, s)

/-! ## The connector -/

def connector : Connector Store where
  connect n database _ := guarded ("connect:" ++ database) fun s =>
    ((), { s with views := (n, documentsOf database s.data) :: s.views })
  find n database collection query := guarded ("find:" ++ database) fun s =>
    (page query.options (matching query.filter (s.seen n collection)), s)
  count n database collection filter := guarded ("count:" ++ database) fun s =>
    (UInt64.ofNat (matching filter (s.seen n collection)).length, s)
  close n database s :=
    let (answer, s) := guarded ("close:" ++ database) (fun s => ((), s)) s
    let others := s.woken.filter (· ≠ n)
    (answer, { s with woken := if answer.isSome then others else others ++ [n] })
  woken s := s.woken

def readDocuments (text : String) : Except Json.Fault (List Document) :=
  Json.readText (Json.Outline.readList Bson.readDocument) text

end Store

end Gateway
