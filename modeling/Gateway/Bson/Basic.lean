import Gateway.Decimal.Decimal128

/-!
# Document values

The values of a document database. A document keeps its entries in order, and the
order is part of it; two documents are the same for a comparison, though, when they
hold the same keys with the same values in whatever order (`sameValue`). Numbers of
different width are different values, and a double is compared as a number, so that
not a number differs from itself and the two zeros agree.
-/

namespace Gateway

structure ObjectId where
  bytes : List UInt8
deriving DecidableEq, Repr

inductive Bson where
  | null
  | bool (b : Bool)
  | int32 (n : Int32)
  | int64 (n : Int64)
  | double (x : Float)
  | string (s : String)
  | array (items : List Bson)
  | document (entries : List (String × Bson))
  | objectId (id : ObjectId)
  /-- Milliseconds since the start of 1970. -/
  | dateTime (millis : Int64)
  | binary (subtype : UInt8) (bytes : List UInt8)
  | regex (pattern options : String)
  | timestamp (time increment : UInt32)
  | code (source : String)
  | codeWithScope (source : String) (scope : List (String × Bson))
  | symbol (s : String)
  | decimal (d : Decimal128)
  | minKey
  | maxKey
  | undefined
  | dbPointer (target : String) (id : ObjectId)
deriving Repr

/-- A document: its entries in order. -/
abbrev Document : Type := List (String × Bson)

namespace Bson

/-! ## Comparison -/

mutual

/-- Whether two values are the same for a comparison. -/
def sameValue : Bson → Bson → Bool
  | .null, .null => true
  | .bool a, .bool b => a == b
  | .int32 a, .int32 b => a == b
  | .int64 a, .int64 b => a == b
  | .double a, .double b => a == b
  | .string a, .string b => a == b
  | .array as, .array bs => sameItems as bs
  | .document as, .document bs => as.length == bs.length && sameEntries as bs
  | .objectId a, .objectId b => a == b
  | .dateTime a, .dateTime b => a == b
  | .binary t as, .binary u bs => t == u && as == bs
  | .regex p a, .regex q b => p == q && a == b
  | .timestamp s a, .timestamp t b => s == t && a == b
  | .code a, .code b => a == b
  | .codeWithScope a as, .codeWithScope b bs =>
    a == b && as.length == bs.length && sameEntries as bs
  | .symbol a, .symbol b => a == b
  | .decimal a, .decimal b => a == b
  | .minKey, .minKey => true
  | .maxKey, .maxKey => true
  | .undefined, .undefined => true
  | .dbPointer s a, .dbPointer t b => s == t && a == b
  | _, _ => false

/-- Whether two lists have the same values at the same places. -/
def sameItems : List Bson → List Bson → Bool
  | [], [] => true
  | a :: as, b :: bs => sameValue a b && sameItems as bs
  | _, _ => false

/-- Whether every entry of the first document is one of the second. -/
def sameEntries : List (String × Bson) → List (String × Bson) → Bool
  | [], _ => true
  | (k, a) :: as, bs =>
    (match bs.find? fun e => e.1 = k with
      | some e => sameValue a e.2
      | none => false) && sameEntries as bs

end

end Bson

end Gateway
