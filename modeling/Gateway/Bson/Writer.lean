import Gateway.Bson.Basic
import Gateway.Bytes.Base64
import Gateway.Bytes.Hex
import Gateway.Json.Basic

/-!
# Document values as JSON

Values that JSON has itself become plain: numbers of every width, strings, lists,
documents. The others become an object whose one key names the kind, except that
bytes of the generic kind become a list of numbers. A double that is not finite has
no number in JSON and becomes null.
-/

namespace Gateway.Bson

def identifierJson (id : ObjectId) : Json :=
  .object [("$oid", .string (Hex.encode id.bytes))]

/-- A number of 32 bits without sign. -/
def json32 (n : UInt32) : Json := .ofNatural n.toUInt64

mutual

def toJson : Bson → Json
  | .null => .null
  | .bool b => .bool b
  | .int32 n => .ofInt64 n.toInt64
  | .int64 n => .ofInt64 n
  | .double x => if x.isFinite then .number (.double x) else .null
  | .string s => .string s
  | .array items => .array (toJsonItems items)
  | .document entries => .object (toJsonEntries entries)
  | .objectId id => identifierJson id
  | .dateTime millis =>
    .object [("$date", .object [("$numberLong", .string (Decimal.ofInt millis.toInt))])]
  | .binary subtype bytes =>
    if subtype = 0 then .array (bytes.map fun b => .ofNatural b.toUInt64)
    else
      .object [("$binary", .object [
        ("base64", .string (Base64.encode bytes)),
        ("subType", .string (String.ofList (Hex.ofByte subtype)))])]
  | .regex pattern options =>
    .object [("$regularExpression", .object [
      ("pattern", .string pattern), ("options", .string options)])]
  | .timestamp time increment =>
    .object [("$timestamp", .object [("t", json32 time), ("i", json32 increment)])]
  | .code source => .object [("$code", .string source)]
  | .codeWithScope source scope =>
    .object [("$code", .string source), ("$scope", .object (toJsonEntries scope))]
  | .symbol s => .object [("$symbol", .string s)]
  | .decimal d => .object [("$numberDecimal", .string d.text)]
  | .minKey => .object [("$minKey", .ofNatural 1)]
  | .maxKey => .object [("$maxKey", .ofNatural 1)]
  | .undefined => .object [("$undefined", .bool true)]
  | .dbPointer target id =>
    .object [("$dbPointer", .object [("$ref", .string target), ("$id", identifierJson id)])]

def toJsonItems : List Bson → List Json
  | [] => []
  | v :: vs => toJson v :: toJsonItems vs

def toJsonEntries : List (String × Bson) → List (String × Json)
  | [] => []
  | (k, v) :: es => (k, toJson v) :: toJsonEntries es

end

end Gateway.Bson
