import Gateway.Json.Fault

/-!
# Outlines of JSON texts

A text is not always read to its end, and where a reader stops depends on what it
wants: one that wants a string stops at a number, one that passes over an unknown
field does not look inside its strings. So a text is first laid out as far as anyone
could read it. The outline keeps a flaw at the place where it stands, and each reader
then meets the first flaw on its own path.

Four readers differ at one and the same flaw: one that wants the value, one that
passes over it, one that chooses by its first character, and one that wants bytes; a
`Flaw` holds what each of them says. A number out of range stops only the first of them,
so it is a value with a fault inside and not a flaw. A string with half a surrogate pair
or a control in it is no text, but still the bytes that a `RawString` holds.

An outline without any flaw is the outline of a value (`ofJson`).
-/

namespace Gateway.Json

/-- A place where a text stops being JSON. -/
structure Flaw where
  /-- Met by a reader that wants the value. -/
  read : Malformed
  /-- Met by a reader that passes over it. -/
  skip : Malformed
  /-- Met by a reader that chooses by the first character. -/
  choice : Malformed
  /-- Met by a reader that wants bytes. -/
  bytes : Malformed
deriving DecidableEq, Repr

/-- A flaw that all readers see alike. -/
def Flaw.plain (m : Malformed) : Flaw := ⟨m, m, m, m⟩

/-- A string that is no text. -/
structure RawString where
  /-- Its bytes. Half a surrogate pair counts as a character of its own. -/
  bytes : List UInt8
  /-- Met by a reader that wants a text. -/
  read : Malformed
  /-- Met by a reader that passes over it, if anything. -/
  skip : Option Malformed
deriving DecidableEq, Repr

/-- How the inside of a list or an object ends. -/
inductive Ending where
  | closed
  /-- The text ends where a comma or the closing bracket could stand. -/
  | textEnd
  /-- Something else than a comma or the closing bracket follows. -/
  | stray
  /-- The closing bracket follows a comma. -/
  | commaClosed
  /-- The text ends behind a comma. -/
  | commaEnd
  /-- Something else than a string stands in the place of a key. -/
  | strayKey
  /-- A key is a string with a flaw. -/
  | badKey (flaw : Flaw)
  /-- The last item is flawed, and nothing behind it was laid out. -/
  | cut
deriving Repr

/-- A key, or why it cannot be read. -/
abbrev Key := Except Malformed String

/-- A text laid out as far as it goes. -/
inductive Outline where
  | null
  | bool (b : Bool)
  | number (value : Except Malformed Number)
  | string (s : String)
  | raw (value : RawString)
  | array (items : List Outline) (ending : Ending)
  | object (members : List (Key × Outline)) (ending : Ending)
  | broken (flaw : Flaw)
deriving Repr

namespace Outline

mutual

def ofJson : Json → Outline
  | .null => .null
  | .bool b => .bool b
  | .number n => .number (.ok n)
  | .string s => .string s
  | .array items => .array (ofItems items) .closed
  | .object members => .object (ofMembers members) .closed

def ofItems : List Json → List Outline
  | [] => []
  | v :: vs => ofJson v :: ofItems vs

def ofMembers : List (String × Json) → List (Key × Outline)
  | [] => []
  | (k, v) :: ms => (.ok k, ofJson v) :: ofMembers ms

end

/-- What a reader of something else finds here, unless the text is malformed. -/
def found : Outline → Except Malformed Found
  | .null => .ok .null
  | .bool b => .ok (.bool b)
  | .number value => value.map Number.found
  | .string s => .ok (.string s)
  | .raw value => .error value.read
  | .array _ _ => .ok .sequence
  | .object _ _ => .ok .map
  | .broken flaw => .error flaw.read

/-- The fault of finding this where something else is expected. -/
def mistake (o : Outline) (expected : String) : Fault :=
  match o.found with
  | .ok found => .invalidType found expected
  | .error m => .malformed m

end Outline

/-! ## Endings -/

/-- The ending seen by a reader that asks for one more item of a list. -/
def Ending.ofList : Ending → Except Fault Unit
  | .closed => .ok ()
  | .textEnd => .error (.malformed .endInList)
  | .stray => .error (.malformed .noListComma)
  | .commaClosed => .error (.malformed .trailingComma)
  | _ => .error (.malformed .endInValue)

/-- The ending seen by a reader that asks for one more member of an object. -/
def Ending.ofObject : Ending → Except Fault Unit
  | .closed => .ok ()
  | .textEnd => .error (.malformed .endInObject)
  | .stray => .error (.malformed .noObjectComma)
  | .commaClosed => .error (.malformed .trailingComma)
  | .strayKey => .error (.malformed .keyNotString)
  | .badKey flaw => .error (.malformed flaw.read)
  | _ => .error (.malformed .endInValue)

/-- The ending seen by a reader that has all it wants of a list and has left no item. -/
def Ending.leaveList : Ending → Except Fault Unit
  | .closed => .ok ()
  | .textEnd => .error (.malformed .endInList)
  | .commaClosed => .error (.malformed .trailingComma)
  | _ => .error (.malformed .trailingCharacters)

/-- The ending seen by a reader that has all it wants of an object and has left no
member. -/
def Ending.leaveObject : Ending → Except Fault Unit
  | .closed => .ok ()
  | .textEnd => .error (.malformed .endInObject)
  | .stray => .error (.malformed .trailingCharacters)
  | _ => .error (.malformed .trailingComma)

/-- The ending seen by a reader that passes over a list. -/
def Ending.skipList : Ending → Except Fault Unit
  | .closed => .ok ()
  | .textEnd => .error (.malformed .endInList)
  | .stray => .error (.malformed .noListComma)
  | .commaClosed => .error (.malformed .noValue)
  | _ => .error (.malformed .endInValue)

/-- The ending seen by a reader that passes over an object. -/
def Ending.skipObject : Ending → Except Fault Unit
  | .closed => .ok ()
  | .textEnd => .error (.malformed .endInObject)
  | .stray => .error (.malformed .noObjectComma)
  | .commaClosed => .error (.malformed .keyNotString)
  | .strayKey => .error (.malformed .keyNotString)
  | .badKey flaw => .error (.malformed flaw.skip)
  | _ => .error (.malformed .endInObject)

/-! ## Passing over -/

namespace Outline

mutual

/-- Passes over a value at any depth: only flaws stop it. -/
def skip : Outline → Except Fault Unit
  | .array items ending => do
    skipItems items
    ending.skipList
  | .object members ending => do
    skipMembers members
    ending.skipObject
  | .raw value =>
    match value.skip with
    | some m => .error (.malformed m)
    | none => .ok ()
  | .broken flaw => .error (.malformed flaw.skip)
  | _ => .ok ()

def skipItems : List Outline → Except Fault Unit
  | [] => .ok ()
  | o :: os => do
    skip o
    skipItems os

def skipMembers : List (Key × Outline) → Except Fault Unit
  | [] => .ok ()
  | (_, o) :: ms => do
    skip o
    skipMembers ms

end

end Outline

end Gateway.Json
