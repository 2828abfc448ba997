import Gateway.Bson.Basic
import Gateway.Bytes.Base64
import Gateway.Bytes.Hex
import Gateway.Decimal.Shortest
import Gateway.Text.Basic
import Gateway.Time.Instant

/-!
# Document values in log lines

A log line shows a value on one line: entries between spaced braces, strings between
plain quotes without any escape, numbers bare, and the rarer kinds by their name.
This form is for a reader's eye and cannot be read back.
-/

namespace Gateway.Bson

def hexText (id : ObjectId) : String := Hex.encode id.bytes

/-- An instant as text, or its milliseconds where it has none. -/
def instantText (millis : Int64) : String :=
  match Time.writeInstant? millis.toInt with
  | some cs => String.ofList cs
  | none => Decimal.ofInt millis.toInt

mutual

def display : Bson → String
  | .null => "null"
  | .bool b => if b then "true" else "false"
  | .int32 n => Decimal.ofInt n.toInt
  | .int64 n => Decimal.ofInt n.toInt
  | .double x => Decimal.plainFloat x
  | .string s => "\"" ++ s ++ "\""
  | .array items => "[" ++ displayItems items ++ "]"
  | .document entries => displayDocument entries
  | .objectId id => "ObjectId(\"" ++ hexText id ++ "\")"
  | .dateTime millis => "DateTime(\"" ++ instantText millis ++ "\")"
  | .binary subtype bytes =>
    "Binary(0x" ++ String.ofList (Text.hexDigits subtype.toNat) ++ ", " ++ Base64.encode bytes
      ++ ")"
  | .regex pattern options => "/" ++ pattern ++ "/" ++ options
  | .timestamp time increment =>
    "Timestamp(" ++ Decimal.ofNat time.toNat ++ ", " ++ Decimal.ofNat increment.toNat ++ ")"
  | .code source => source
  | .codeWithScope source _ => source
  | .symbol s => "Symbol(\"" ++ s ++ "\")"
  | .decimal d => d.text
  | .minKey => "MinKey"
  | .maxKey => "MaxKey"
  | .undefined => "undefined"
  | .dbPointer target id => "DbPointer(" ++ target ++ ", " ++ hexText id ++ ")"

/-- The items of a list, with commas between. -/
def displayItems : List Bson → String
  | [] => ""
  | [v] => display v
  | v :: vs => display v ++ ", " ++ displayItems vs

/-- A document on one line; the empty one has no space inside. -/
def displayDocument : List (String × Bson) → String
  | [] => "\x7b\x7d"
  | (k, v) :: es => "\x7b \"" ++ k ++ "\": " ++ display v ++ displayEntries es ++ " \x7d"

def displayEntries : List (String × Bson) → String
  | [] => ""
  | (k, v) :: es => ", \"" ++ k ++ "\": " ++ display v ++ displayEntries es

end

end Gateway.Bson
