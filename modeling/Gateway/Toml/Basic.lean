import Gateway.Entries
import Gateway.Json.Fault

/-!
# Tables

A table file gives values to keys, and one table may be filled from several places: by
a header, by headers of tables inside it, and by dotted keys. What the format forbids
is to come back to a table by another way than the one it was made by. So every table
keeps its `Origin`, and the rules are the three comparisons of origins below:

* a dotted key passes through no table that has a header of its own, and adds only to
  tables made by dotted keys (`Table.define`);
* a header names a table that is new or that only other headers passed through
  (`Table.open?`);
* a table between braces and a list between brackets are complete where they stand,
  and nothing passes through them (`amend`).

A list of tables made by headers always has a last one, which is where a path through
the list goes on; the type says so.
-/

namespace Gateway.Toml

/-! ## Faults -/

/-- Why a text is not a table, or not the table that a reader wants. -/
inductive Fault where
  | unexpectedEnd
  | unexpected (c : Char)
  | badEscape
  | badScalar (text : String)
  | duplicateKey (key : String)
  | notExtensible (key : String)
  | tooDeep
  | mistaken (fault : Json.Fault)
deriving Repr

def Fault.message : Fault → String
  | .unexpectedEnd => "unexpected end of the text"
  | .unexpected c => "unexpected character " ++ Text.quoted (String.singleton c)
  | .badEscape => "invalid escape sequence"
  | .badScalar text => "invalid value " ++ Text.quoted text
  | .duplicateKey key => "duplicate key " ++ Text.quoted key
  | .notExtensible key => "the value of " ++ Text.quoted key ++ " cannot be extended"
  | .tooDeep => "recursion limit exceeded"
  | .mistaken fault => fault.message

/-! ## Values -/

/-- How a table came to be. -/
inductive Origin where
  /-- Passed through by headers only. -/
  | implied
  /-- Passed through by dotted keys. -/
  | dotted
  /-- Named by a header. -/
  | headed
  /-- Written between braces. -/
  | closed
deriving DecidableEq, Repr

inductive Value where
  | string (s : String)
  | integer (n : Int)
  | float (x : Float)
  /-- A float past every finite one. -/
  | overflow
  | bool (b : Bool)
  /-- A date, a time of day or both. -/
  | moment (text : String)
  | array (items : List Value)
  | table (origin : Origin) (entries : List (String × Value))
  /-- A list of tables, each named by a header. -/
  | tables (earlier : List (List (String × Value))) (last : List (String × Value))
deriving Repr

abbrev Table : Type := List (String × Value)

structure KeyPath where
  above : List String
  key : String
deriving DecidableEq, Repr

structure Assignment where
  place : KeyPath
  value : Value
deriving Repr

/-- Follows a path down from a table, making each table that is missing, and changes
the table at its end, whose origin the change is told. -/
def amend (fresh : Origin) (change : Origin → Table → Except Fault Table) :
    List String → Origin → Table → Except Fault Table
  | [], origin, t => change origin t
  | key :: path, _, t =>
    match Entries.get? key t with
    | none => do
      let inner ← amend fresh change path fresh []
      pure (Entries.insert key (.table fresh inner) t)
    | some (.table .closed _) => .error (.notExtensible key)
    | some (.table origin inner) =>
      if fresh = .dotted ∧ origin = .headed then .error (.duplicateKey key)
      else do
        let inner ← amend fresh change path origin inner
        pure (Entries.insert key (.table origin inner) t)
    | some (.tables earlier last) => do
      let last ← amend fresh change path .headed last
      pure (Entries.insert key (.tables earlier last) t)
    | some _ => .error (.notExtensible key)

namespace Table

/-! ## Assignments -/

def add (key : String) (value : Value) (t : Table) : Except Fault Table :=
  if (Entries.get? key t).isSome then .error (.duplicateKey key)
  else .ok (Entries.insert key value t)

def define (t : Table) (a : Assignment) : Except Fault Table :=
  amend .dotted (fun origin inner =>
    if a.place.above ≠ [] ∧ origin ≠ .dotted then .error (.duplicateKey a.place.key)
    else add a.place.key a.value inner) a.place.above .headed t

def defineAll (t : Table) (as : List Assignment) : Except Fault Table := as.foldlM define t

/-! ## Headers -/

/-- A header: of one table, or of the next one of a list of tables. -/
inductive Header where
  | table (place : KeyPath)
  | element (place : KeyPath)
deriving DecidableEq, Repr

/-- What a header's table holds before its own assignments. -/
def open? (key : String) (t : Table) : Except Fault Table :=
  match Entries.get? key t with
  | none => .ok []
  | some (.table .implied inner) => .ok inner
  | some _ => .error (.duplicateKey key)

/-- Puts a table at the end of a list of tables. -/
def append (key : String) (element t : Table) : Except Fault Table :=
  match Entries.get? key t with
  | none => .ok (Entries.insert key (.tables [] element) t)
  | some (.tables earlier last) =>
    .ok (Entries.insert key (.tables (earlier ++ [last]) element) t)
  | some _ => .error (.duplicateKey key)

/-- A header with the assignments below it. -/
structure Section where
  header : Header
  assignments : List Assignment
deriving Repr

/-- Makes the assignments of a section in the table that its header names. -/
def enter (t : Table) (s : Section) : Except Fault Table :=
  match s.header with
  | .table ⟨above, key⟩ =>
    amend .implied (fun _ inner => do
      let opened ← open? key inner
      let opened ← opened.defineAll s.assignments
      pure (Entries.insert key (.table .headed opened) inner)) above .headed t
  | .element ⟨above, key⟩ =>
    amend .implied (fun _ inner => do
      let element ← defineAll [] s.assignments
      append key element inner) above .headed t

end Table

/-! ## Files -/

/-- A line that says something. -/
inductive Statement where
  | assign (a : Assignment)
  | head (h : Table.Header)
deriving Repr

/-- The assignments before the first header, and the sections from there. -/
def sections : List Statement → List Assignment × List Table.Section
  | [] => ([], [])
  | .assign a :: rest =>
    let (as, ss) := sections rest
    (a :: as, ss)
  | .head h :: rest =>
    let (as, ss) := sections rest
    ([], ⟨h, as⟩ :: ss)

def Table.ofStatements (ls : List Statement) : Except Fault Table := do
  let (as, ss) := sections ls
  let root ← Table.defineAll [] as
  ss.foldlM Table.enter root

end Gateway.Toml
