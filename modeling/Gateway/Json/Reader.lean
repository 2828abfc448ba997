import Gateway.Json.Scan
import Gateway.Entries

/-!
# Reading values

A reader takes an outline and gives a value or the first fault on its way. The same
readers serve three sources: a text as it is read from front to back, a value that
was read whole before, and a configuration table. They differ in three respects
only: the nesting of a text is limited, what is left over when a reader has all it
wants is another fault in each, and a choice by name is looked at differently.

Records are read by a `Shape`: the names of the fields in order, how each is read
into a draft, and what the draft must hold in the end. A record may come as an
object, with its fields in any order, or as a list, with its fields in theirs.
-/

namespace Gateway.Json

/-! ## Scopes -/

/-- Where an outline comes from. -/
inductive Source where
  /-- A text that is read as it comes. -/
  | text
  /-- A value that was read whole. -/
  | value
  /-- A configuration table. -/
  | table
deriving DecidableEq, Repr

/-- The place of a reader: its source and how many more levels a text may nest. -/
structure Scope where
  source : Source
  room : Nat
deriving DecidableEq, Repr

/-- Lists and objects of a text nest at most this deep. -/
def maxDepth : Nat := 127

def Scope.text : Scope := ⟨.text, maxDepth⟩

def Scope.value : Scope := ⟨.value, maxDepth⟩

def Scope.table : Scope := ⟨.table, maxDepth⟩

def Scope.enter (s : Scope) : Except Fault Scope :=
  match s.source, s.room with
  | .text, 0 => .error (.malformed .tooDeep)
  | .text, n + 1 => .ok ⟨.text, n⟩
  | _, _ => .ok s

/-- What a reader does that is done with a list of `total` items and left some. -/
def Scope.leaveList (s : Scope) (left total : Nat) (ending : Ending) : Except Fault Unit :=
  match s.source with
  | .text => if left = 0 then ending.leaveList else .error (.malformed .trailingCharacters)
  | .value =>
    if left = 0 then .ok () else .error (.invalidLength total "fewer elements in array")
  | .table => .ok ()

/-- What a reader does that is done with an object of `total` members and left some. -/
def Scope.leaveObject (s : Scope) (left total : Nat) (ending : Ending) : Except Fault Unit :=
  match s.source with
  | .text => if left = 0 then ending.leaveObject else .error (.malformed .trailingComma)
  | .value =>
    if left = 0 then .ok () else .error (.invalidLength total "fewer elements in map")
  | .table => .ok ()

def whole {α : Type} : Except Malformed α → Except Fault α
  | .ok a => .ok a
  | .error m => .error (.malformed m)

namespace Outline

/-! ## Plain values -/

def readString : Outline → Except Fault String
  | .string s => .ok s
  | o => .error (o.mistake "a string")

/-- Reads a boolean; null is none. -/
def readBool : Outline → Except Fault Bool
  | .bool b => .ok b
  | o => .error (o.mistake "a boolean")

def readNatural (bound : Nat) (expected : String) : Outline → Except Fault Nat
  | .number value => do
    match ← whole value with
    | .natural n =>
      if n.toNat ≤ bound then .ok n.toNat else .error (.invalidValue (.integer n.toNat) expected)
    | .negative n => .error (.invalidValue (.integer n.toInt) expected)
    | .double x => .error (.invalidType (.float x) expected)
  | o => .error (o.mistake expected)

def readWord (o : Outline) : Except Fault UInt64 :=
  (o.readNatural wordBound "u64").map UInt64.ofNat

/-- Reads bytes: a list of them, or a string by its own. -/
def readBytes (s : Scope) : Outline → Except Fault (List UInt8)
  | .string text => .ok text.toUTF8.toList
  | .raw value => .ok value.bytes
  | .array items ending => do
    let _ ← s.enter
    let ns ← items.mapM (readNatural 255 "u8")
    ending.ofList
    pure (ns.map UInt8.ofNat)
  | .broken flaw => .error (.malformed flaw.bytes)
  | o => .error (o.mistake "byte array")

/-- Reads null as nothing and anything else by the reader given. -/
def readOption {α : Type} (read : Outline → Except Fault α) : Outline → Except Fault (Option α)
  | .null => .ok none
  | o => (read o).map some

def readList {α : Type} (item : Scope → Outline → Except Fault α) (s : Scope) :
    Outline → Except Fault (List α)
  | .array items ending => do
    let inner ← s.enter
    let values ← items.mapM (item inner)
    ending.ofList
    pure values
  | o => .error (o.mistake "a sequence")

/-! ## Whole values -/

mutual

/-- Reads any value whole. Members are sorted by key; of two with one key the later
one stays. -/
def readJson (s : Scope) : Outline → Except Fault Json
  | .null => .ok .null
  | .bool b => .ok (.bool b)
  | .number value => (whole value).map .number
  | .string s => .ok (.string s)
  | .raw value => .error (.malformed value.read)
  | .array items ending => do
    let inner ← s.enter
    let values ← readItems inner items
    ending.ofList
    pure (.array values)
  | .object members ending => do
    let inner ← s.enter
    let values ← readMembers inner members
    ending.ofObject
    pure (.object (Entries.sorted values))
  | .broken flaw => .error (.malformed flaw.read)

def readItems (s : Scope) : List Outline → Except Fault (List Json)
  | [] => .ok []
  | o :: os => do
    let v ← readJson s o
    let vs ← readItems s os
    pure (v :: vs)

/-- Reads the members of an object whole, as they come. -/
def readMembers (s : Scope) : List (Key × Outline) → Except Fault (List (String × Json))
  | [] => .ok []
  | (key, o) :: ms => do
    let k ← whole key
    let v ← readJson s o
    let vs ← readMembers s ms
    pure ((k, v) :: vs)

end

/-! ## Choices by name -/

/-- Reads a name out of a choice: a string, or an object whose single key is the name
and whose value is null. -/
def readChoice (s : Scope) : Outline → Except Fault String
  | .string s => .ok s
  | .raw value => .error (.malformed value.read)
  | .object members ending =>
    match s.source with
    | .text => do
      let _ ← s.enter
      match members with
      | [] => do
        ending.ofObject
        .error (.malformed .noValue)
      | (key, o) :: rest => do
        let name ← whole key
        match o with
        | .null => pure ()
        | o => .error (o.mistake "unit")
        match rest, ending with
        | [], .closed => .ok name
        | [], .textEnd => .error (.malformed .endInObject)
        | _, _ => .error (.malformed .noValue)
    | _ =>
      match members with
      | [(key, o)] => do
        let name ← whole key
        match o with
        | .null => .ok name
        | o => .error (o.mistake "unit")
      | _ => .error (.invalidValue .map "map with a single key")
  | .broken flaw => .error (.malformed flaw.choice)
  | o =>
    match s.source with
    | .text => .error (.malformed .noValue)
    | _ => .error (o.mistake "string or map")

end Outline

/-! ## Records -/

/-- A field of a record that is read into a draft `σ`. -/
structure Field (σ : Type) where
  name : String
  /-- Whether the draft has the field already. -/
  given : σ → Bool
  read : Scope → Outline → σ → Except Fault σ

/-- A field that a draft lacks: its place and its name. -/
structure Vacancy where
  place : Nat
  name : String
deriving DecidableEq, Repr

/-- How a record `α` is read by way of a draft `σ`. -/
structure Shape (σ α : Type) where
  /-- What a reader says that finds no record. -/
  title : String
  fields : List (Field σ)
  /-- A key that is no field is a fault. -/
  strict : Bool
  start : σ
  /-- The record of a draft, or the first field that it lacks. -/
  finish : σ → Except Vacancy α

namespace Shape

variable {σ α : Type}

def names (shape : Shape σ α) : List String := shape.fields.map Field.name

def takeMembers (shape : Shape σ α) (s : Scope) (d : σ) :
    List (Key × Outline) → Except Fault σ
  | [] => .ok d
  | (key, o) :: ms => do
    let k ← whole key
    match shape.fields.find? fun f => f.name = k with
    | some f =>
      if f.given d then .error (.duplicateField k)
      else do
        let d ← f.read s o d
        shape.takeMembers s d ms
    | none =>
      if shape.strict then .error (.unknownField k shape.names)
      else do
        o.skip
        shape.takeMembers s d ms

/-- Reads the items of a list into the fields in order, until one of both runs out;
returns the number of items left and whether fields are left. -/
def takeItems (s : Scope) : List (Field σ) → List Outline → σ → Except Fault (σ × Nat × Bool)
  | [], os, d => .ok (d, os.length, false)
  | _ :: _, [], d => .ok (d, 0, true)
  | f :: fs, o :: os, d => do
    let d ← f.read s o d
    takeItems s fs os d

/-- The length that a record is said to have when it comes as a list. -/
def lengthText (shape : Shape σ α) : String :=
  let n := shape.fields.length
  shape.title ++ " with " ++ Decimal.ofNat n ++ (if n = 1 then " element" else " elements")

def read (shape : Shape σ α) (s : Scope) : Outline → Except Fault α
  | .object members ending => do
    let inner ← s.enter
    let d ← shape.takeMembers inner shape.start members
    ending.ofObject
    match shape.finish d with
    | .ok a => .ok a
    | .error v => .error (.missingField v.name)
  | .array items ending => do
    let inner ← s.enter
    let (d, left, short) ← takeItems inner shape.fields items shape.start
    if short then ending.ofList
    match shape.finish d with
    | .ok a => do
      s.leaveList left items.length ending
      pure a
    | .error v => .error (.invalidLength v.place shape.lengthText)
  | o => .error (o.mistake shape.title)

end Shape

/-! ## Whole texts -/

/-- Reads a text from front to back; nothing but blanks may follow the value. -/
def readText {α : Type} (read : Scope → Outline → Except Fault α) (s : String) :
    Except Fault α := do
  let layout := Layout.ofText s
  let a ← read .text layout.value
  if layout.trailing then .error (.malformed .trailingCharacters) else pure a

def ofText (s : String) : Except Fault Json := readText Outline.readJson s

def readValue {α : Type} (read : Scope → Outline → Except Fault α) (v : Json) :
    Except Fault α :=
  read .value (.ofJson v)

end Gateway.Json
