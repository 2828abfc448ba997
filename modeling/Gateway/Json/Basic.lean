/-!
# JSON values

A value as a program holds it. Integers keep the form in which they were read: a
number without sign that fits 64 bits is a natural, a negative one that fits is
signed, and everything else is a double. Members stay in the order given: a value
that is written has them in the order of its declaration, a value that was read as
a whole has them sorted.
-/

namespace Gateway

/-- A number as JSON tells them apart. -/
inductive Json.Number where
  | natural (n : UInt64)
  | negative (n : Int64)
  | double (x : Float)
deriving Repr

inductive Json where
  | null
  | bool (b : Bool)
  | number (n : Json.Number)
  | string (s : String)
  | array (items : List Json)
  | object (members : List (String × Json))
deriving Repr

namespace Json

def ofNatural (n : UInt64) : Json := .number (.natural n)

/-- A signed number as a value: without sign from zero on. -/
def ofInt64 (n : Int64) : Json :=
  if n < 0 then .number (.negative n) else .number (.natural n.toUInt64)

/-- An optional value, with null in place of nothing. -/
def ofOption {α : Type} (f : α → Json) : Option α → Json
  | none => .null
  | some a => f a

end Json

end Gateway
