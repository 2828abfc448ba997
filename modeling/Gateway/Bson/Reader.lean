import Gateway.Bson.Display
import Gateway.Bytes.Uuid
import Gateway.Decimal.Nearest
import Gateway.Json.Reader
import Gateway.Time.Instant

/-!
# Document values from JSON

Plain JSON gives plain values, with numbers put into the narrowest kind by their
form: a natural number becomes 32 bits wide if it fits and else 64, a negative one is
always 64 wide, and the rest are doubles.

An object is read key by key, and a key that tags a kind decides it: the object
becomes a value of that kind, what was read before is dropped, and nothing may
follow. Most tags carry a body that needs no further document (`tagged`); code and
its scope are read together.
-/

namespace Gateway.Bson

open Gateway.Json

/-! ## Numbers -/

def ofNumber : Json.Number → Except Fault Bson
  | .natural n =>
    if n.toNat ≤ Decimal.maxOfBits 31 then .ok (.int32 (Int32.ofInt n.toNat))
    else if n.toNat ≤ Decimal.maxOfBits 63 then .ok (.int64 (Int64.ofInt n.toNat))
    else .error (.pastSignedRange n.toNat)
  | .negative n => .ok (.int64 n)
  | .double x => .ok (.double x)

def readInt32 (s : String) : Except Fault Bson :=
  match Decimal.readSigned (Decimal.maxOfBits 31) s.toList with
  | .ok n => .ok (.int32 (Int32.ofInt n))
  | .error _ => .error (.invalidValue (.string s) "32-bit signed integer as a string")

/-- A number of 64 bits in text, if it is one. -/
def int64OfText? (s : String) : Option Int64 :=
  match Decimal.readSigned (Decimal.maxOfBits 63) s.toList with
  | .ok n => some (Int64.ofInt n)
  | .error _ => none

def readInt64 (s : String) : Except Fault Bson :=
  match int64OfText? s with
  | some n => .ok (.int64 n)
  | none => .error (.invalidValue (.string s) "64-bit signed integer as a string")

/-- A double in text, with a word for each value that is not finite. -/
def readDoubleText (s : String) : Except Fault Bson :=
  if s = "Infinity" then .ok (.double Decimal.infinity)
  else if s = "-Infinity" then .ok (.double (-Decimal.infinity))
  else if s = "NaN" then .ok (.double Decimal.notANumber)
  else
    match Decimal.readDouble s.toList with
    | some x => .ok (.double x)
    | none => .error (.invalidValue (.string s) "64-bit signed integer as a string")

def readDecimal (s : String) : Except Fault Bson :=
  match Decimal128.read? s with
  | some d => .ok (.decimal d)
  | none => .error (.invalidValue (.string s) "decimal128 as a string")

/-! ## Identifiers -/

def readIdentifierText (s : String) : Except Fault ObjectId :=
  match Hex.decode s.toList with
  | some bytes =>
    if bytes.length = 12 then .ok ⟨bytes⟩
    else .error (.invalidValue (.string s) "24-character, big-endian hex string")
  | none => .error (.invalidValue (.string s) "24-character, big-endian hex string")

/-- Reads the identifier under its own key. A list or an object is entered before it is
refused. -/
def readIdentifier (s : Scope) (o : Outline) : Except Fault ObjectId :=
  let mistake := o.mistake "hexstring or byte array"
  match o with
  | .string text => readIdentifierText text
  | .array _ _ | .object _ _ => do
    let _ ← s.enter
    .error mistake
  | _ => .error mistake

/-- The first byte of a text that is no digit, with its place. -/
def firstNoDigit (cs : List Char) : Option (Char × Nat) :=
  let bytes := (String.ofList cs).toUTF8.toList
  (bytes.zipIdx.find? fun p => (Hex.value? (Char.ofNat p.1.toNat)).isNone).map fun p =>
    (Char.ofNat p.1.toNat, p.2)

/-- The identifier inside a pointer. Of its faults an odd length comes first, then what
is no digit, then a wrong number of bytes. -/
def pointerIdentifier (s : String) : Except Fault ObjectId :=
  match readIdentifierText s with
  | .ok id => .ok id
  | .error _ =>
    if s.utf8ByteSize % 2 = 1 then .error (.badIdentifier (.length s.utf8ByteSize))
    else
      match firstNoDigit s.toList with
      | some (c, i) => .error (.badIdentifier (.character c i))
      | none => .error (.badIdentifier (.length (s.utf8ByteSize / 2)))

/-! ## Bodies -/

def pairShape {α β : Type} (title first second : String)
    (readFirst : Scope → Outline → Except Fault α) (readSecond : Scope → Outline → Except Fault β) :
    Shape (Option α × Option β) (α × β) where
  title := "struct " ++ title
  fields := [
    ⟨first, fun d => d.1.isSome, fun s o d => (readFirst s o).map fun a => (some a, d.2)⟩,
    ⟨second, fun d => d.2.isSome, fun s o d => (readSecond s o).map fun b => (d.1, some b)⟩]
  strict := true
  start := (none, none)
  finish := fun d =>
    match d with
    | (none, _) => .error ⟨0, first⟩
    | (some _, none) => .error ⟨1, second⟩
    | (some a, some b) => .ok (a, b)

def textShape (title name : String) : Shape (Option String) String where
  title := "struct " ++ title
  fields := [⟨name, Option.isSome, fun _ o _ => o.readString.map some⟩]
  strict := true
  start := none
  finish := fun d =>
    match d with
    | none => .error ⟨0, name⟩
    | some a => .ok a

/-- Reads a number of 32 bits without sign. -/
def readWord32 (o : Outline) : Except Fault UInt32 :=
  (o.readNatural (Decimal.maxOfBits 32) "u32").map UInt32.ofNat

def timestampShape : Shape (Option UInt32 × Option UInt32) (UInt32 × UInt32) :=
  pairShape "TimestampBody" "t" "i" (fun _ => readWord32) fun _ => readWord32

def regexShape : Shape (Option String × Option String) (String × String) :=
  pairShape "RegexBody" "pattern" "options" (fun _ => Outline.readString)
    fun _ => Outline.readString

def binaryShape : Shape (Option String × Option String) (String × String) :=
  pairShape "BinaryBody" "base64" "subType" (fun _ => Outline.readString)
    fun _ => Outline.readString

def pointerShape : Shape (Option String × Option String) (String × String) :=
  pairShape "DbPointerBody" "$ref" "$id" (fun _ => Outline.readString)
    fun s o => (textShape "ObjectId" "$oid").read s o

/-- The options of a regular expression, one letter each, in order. -/
def sortOptions (s : String) : String :=
  String.ofList (s.toList.mergeSort fun a b => a ≤ b)

/-- A regular expression of a pattern and options, neither of which may hold a null. -/
def readRegex (pattern options : String) : Except Fault Bson :=
  let options := sortOptions options
  if pattern.toList.contains '\x00' then .error (.nullInside pattern)
  else if options.toList.contains '\x00' then .error (.nullInside options)
  else .ok (.regex pattern options)

/-- Bytes of a subtype, both in text. -/
def readBinary (base64 subtype : String) : Except Fault Bson :=
  match Base64.decode base64.toList with
  | none => .error (.badBody (.string base64) "base64 encoded bytes")
  | some bytes =>
    match Hex.decode subtype.toList with
    | none => .error (.badBody (.string subtype) "hexadecimal number as a string")
    | some [b] => .ok (.binary b bytes)
    | some _ => .error (.badBody .bytes "one byte subtype")

/-- The subtype of the bytes of a universal identifier. -/
def uuidSubtype : UInt8 := 4

def readUuid (s : String) : Except Fault Bson :=
  match Uuid.decode s.toList with
  | some bytes => .ok (.binary uuidSubtype bytes)
  | none =>
    .error (.badBody (.string s)
      "$uuid value does not follow RFC 4122 format regarding length and hyphens")

def readInstantText (s : String) : Except Fault Bson :=
  match Time.readInstant s.toList with
  | some millis => .ok (.dateTime (Int64.ofInt millis))
  | none => .error (.badBody (.string s) "rfc3339 formatted utc datetime")

/-- Reads an instant: its text, its milliseconds, or these in text under a key of
their own. The body is read whole first, so a malformed one is that and no other
body. -/
def readDate (s : Scope) (o : Outline) : Except Fault Bson := do
  let _ ← o.readJson s
  match (textShape "Int64" "$numberLong").read .value o with
  | .ok text =>
    match int64OfText? text with
    | some millis => .ok (.dateTime millis)
    | none => .error (.badBody (.string text) "i64 as a string")
  | .error _ =>
    match o with
    | .string text => readInstantText text
    | .number (.ok (.natural n)) =>
      if n.toNat ≤ Decimal.maxOfBits 63 then .ok (.dateTime (Int64.ofInt n.toNat))
      else .error (.noAlternative "DateTimeBody")
    | .number (.ok (.negative n)) => .ok (.dateTime n)
    | _ => .error (.noAlternative "DateTimeBody")

/-- Reads one of the two ends of the order of values. -/
def readEnd (value : Bson) (expected : String) (o : Outline) : Except Fault Bson := do
  let n ← o.readNatural 255 "u8"
  if n = 1 then .ok value else .error (.badBody (.integer n) expected)

/-- Reads the value that is not defined. -/
def readUndefined (o : Outline) : Except Fault Bson := do
  let b ← o.readBool
  if b then .ok .undefined else .error (.badBody (.bool b) "$undefined should always be true")

def readTextBody (read : String → Except Fault Bson) (o : Outline) : Except Fault Bson := do
  read (← o.readString)

def readDecimalBytes (bytes : List UInt8) : Except Fault Bson :=
  match Decimal128.ofBytes? bytes with
  | some d => .ok (.decimal d)
  | none => .error .badSlice

/-- The reader of the body that stands under a tag, for a tag whose body holds no
further document. -/
def tagged (tag : String) : Option (Scope → Outline → Except Fault Bson) :=
  match tag with
  | "$oid" => some fun s o => (readIdentifier s o).map .objectId
  | "$symbol" => some fun _ o => o.readString.map .symbol
  | "$numberInt" => some fun _ => readTextBody readInt32
  | "$numberLong" => some fun _ => readTextBody readInt64
  | "$numberDouble" => some fun _ => readTextBody readDoubleText
  | "$numberDecimal" => some fun _ => readTextBody readDecimal
  | "$numberDecimalBytes" => some fun s o => do readDecimalBytes (← o.readBytes s)
  | "$binary" => some fun s o => do
    let (base64, subtype) ← binaryShape.read s o
    readBinary base64 subtype
  | "$uuid" => some fun _ => readTextBody readUuid
  | "$timestamp" => some fun s o =>
    (timestampShape.read s o).map fun (t, i) => .timestamp t i
  | "$regularExpression" => some fun s o => do
    let (pattern, options) ← regexShape.read s o
    readRegex pattern options
  | "$dbPointer" => some fun s o => do
    let (target, id) ← pointerShape.read s o
    let id ← pointerIdentifier id
    pure (.dbPointer target id)
  | "$date" => some readDate
  | "$minKey" => some fun _ => readEnd .minKey "value of $minKey should always be 1"
  | "$maxKey" => some fun _ => readEnd .maxKey "value of $maxKey should always be 1"
  | "$undefined" => some fun _ => readUndefined
  | _ => none

/-! ## Values -/

/-- The entries of a value that has to be a document. -/
def asDocument : Bson → Except Fault Document
  | .document entries => .ok entries
  | v => .error (.invalidType .map
      ("expected document, found extended JSON data type: " ++ v.display))

mutual

def read (s : Scope) : Outline → Except Fault Bson
  | .null => .ok .null
  | .bool b => .ok (.bool b)
  | .number value => do ofNumber (← whole value)
  | .string s => .ok (.string s)
  | .raw value => .error (.malformed value.read)
  | .array items ending => do
    let inner ← s.enter
    let values ← readItems inner items
    ending.ofList
    pure (.array values)
  | .object members ending => do
    let inner ← s.enter
    readMembers inner members.length ending [] members
  | .broken flaw => .error (.malformed flaw.read)

def readItems (s : Scope) : List Outline → Except Fault (List Bson)
  | [] => .ok []
  | o :: os => do
    let v ← read s o
    let vs ← readItems s os
    pure (v :: vs)

/-- Reads the members of an object of `total` members behind those that are in the
document already. -/
def readMembers (s : Scope) (total : Nat) (ending : Ending) (doc : Document) :
    List (Key × Outline) → Except Fault Bson
  | [] => do
    ending.ofObject
    pure (.document doc)
  | (key, o) :: rest => do
    let k ← whole key
    if k = "$code" then do
      let source ← o.readString
      match rest with
      | [] => do
        ending.ofObject
        pure (.code source)
      | (key, o) :: rest => do
        let k ← whole key
        if k = "$scope" then do
          let scope ← readDocument s o
          s.leaveObject rest.length total ending
          pure (.codeWithScope source scope)
        else .error (.unknownField k ["$scope"])
    else if k = "$scope" then do
      let scope ← readDocument s o
      match rest with
      | [] => do
        ending.ofObject
        .error (.missingField "$code")
      | (key, o) :: rest => do
        let k ← whole key
        if k = "$code" then do
          let source ← o.readString
          s.leaveObject rest.length total ending
          pure (.codeWithScope source scope)
        else .error (.unknownField k ["$code"])
    else
      match tagged k with
      | some body => do
        let v ← body s o
        s.leaveObject rest.length total ending
        pure v
      | none => do
        let v ← read s o
        readMembers s total ending (Entries.insert k v doc) rest

/-- Reads a document; a tagged value is none. -/
def readDocument (s : Scope) : Outline → Except Fault Document
  | .object members ending => do
    let inner ← s.enter
    asDocument (← readMembers inner members.length ending [] members)
  | o => .error (o.mistake "a Bson")

end

end Gateway.Bson
