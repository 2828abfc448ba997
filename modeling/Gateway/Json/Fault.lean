import Gateway.Json.Printer

/-!
# Faults of reading

A text can fail to be JSON (`Malformed`), and a value can fail to be what a reader
wants (`Fault`). Every cause is a constructor; the wording is in the two `message`
functions and nowhere else.
-/

namespace Gateway.Json

/-- Why a text is not JSON. -/
inductive Malformed where
  | endInValue
  | endInObject
  | endInList
  | endInString
  | noValue
  | badWord
  | noColon
  | noListComma
  | noObjectComma
  | keyNotString
  | trailingComma
  | trailingCharacters
  | badNumber
  | numberOutOfRange
  | badEscape
  | controlInString
  | loneSurrogate
  | unpairedSurrogate
  | tooDeep
deriving DecidableEq, Repr

def Malformed.message : Malformed → String
  | .endInValue => "EOF while parsing a value"
  | .endInObject => "EOF while parsing an object"
  | .endInList => "EOF while parsing a list"
  | .endInString => "EOF while parsing a string"
  | .noValue => "expected value"
  | .badWord => "expected ident"
  | .noColon => "expected `:`"
  | .noListComma => "expected `,` or `]`"
  | .noObjectComma => "expected `,` or `\x7d`"
  | .keyNotString => "key must be a string"
  | .trailingComma => "trailing comma"
  | .trailingCharacters => "trailing characters"
  | .badNumber => "invalid number"
  | .numberOutOfRange => "number out of range"
  | .badEscape => "invalid escape"
  | .controlInString => "control character (\\u0000-\\u001F) found while parsing a string"
  | .loneSurrogate => "lone leading surrogate in hex escape"
  | .unpairedSurrogate => "unexpected end of hex escape"
  | .tooDeep => "recursion limit exceeded"

/-- What a reader found in place of what it wanted. -/
inductive Found where
  | null
  | bool (b : Bool)
  | integer (n : Int)
  | float (x : Float)
  | string (s : String)
  | bytes
  | sequence
  | map
deriving Repr

def Found.message : Found → String
  | .null => "null"
  | .bool b => "boolean `" ++ (if b then "true" else "false") ++ "`"
  | .integer n => "integer `" ++ Decimal.ofInt n ++ "`"
  | .float x => "floating point `" ++ String.ofList (Number.double x).print ++ "`"
  | .string s => "string " ++ Text.quoted s
  | .bytes => "byte array"
  | .sequence => "sequence"
  | .map => "map"

def Number.found : Number → Found
  | .natural n => .integer n.toNat
  | .negative n => .integer n.toInt
  | .double x => .float x

/-- Why a text does not name an object identifier. -/
inductive IdentifierFault where
  | character (c : Char) (index : Nat)
  | length (n : Nat)
deriving DecidableEq, Repr

def IdentifierFault.message : IdentifierFault → String
  | .character c i =>
    "invalid character '" ++ String.singleton c ++ "' encountered at index " ++ Decimal.ofNat i
  | .length n => "invalid hex string length " ++ Decimal.ofNat n

/-- Why a text is not the value that a reader wants. -/
inductive Fault where
  | malformed (m : Malformed)
  | invalidType (found : Found) (expected : String)
  | invalidValue (found : Found) (expected : String)
  | invalidLength (n : Nat) (expected : String)
  | missingField (name : String)
  | duplicateField (name : String)
  | unknownField (name : String) (known : List String)
  /-- No alternative of a choice by content fits. -/
  | noAlternative (name : String)
  /-- A number written as text is not one. -/
  | integer (fault : Decimal.IntegerFault)
  /-- A natural number past the signed range of a document. -/
  | pastSignedRange (n : Nat)
  /-- The body of a tagged document value does not mean what its tag says. -/
  | badBody (found : Found) (expected : String)
  | badIdentifier (fault : IdentifierFault)
  /-- Bytes are more or fewer than a value takes. -/
  | badSlice
  /-- A text that has to end at its first null holds one. -/
  | nullInside (s : String)
deriving Repr

def alternatives : List String → String
  | [] => "there are no fields"
  | [a] => "expected `" ++ a ++ "`"
  | [a, b] => "expected `" ++ a ++ "` or `" ++ b ++ "`"
  | names => "expected one of " ++ ", ".intercalate (names.map fun n => "`" ++ n ++ "`")

def Fault.message : Fault → String
  | .malformed m => m.message
  | .invalidType found expected => "invalid type: " ++ found.message ++ ", expected " ++ expected
  | .invalidValue found expected => "invalid value: " ++ found.message ++ ", expected " ++ expected
  | .invalidLength n expected => "invalid length " ++ Decimal.ofNat n ++ ", expected " ++ expected
  | .missingField name => "missing field `" ++ name ++ "`"
  | .duplicateField name => "duplicate field `" ++ name ++ "`"
  | .unknownField name known => "unknown field `" ++ name ++ "`, " ++ alternatives known
  | .noAlternative name => "data did not match any variant of untagged enum " ++ name
  | .integer fault => fault.message
  | .pastSignedRange n => "cannot represent " ++ Decimal.ofNat n ++ " as a signed number"
  | .badBody found expected =>
    "BSON error. Kind: A deserialization-related error occurred. Message: invalid value: "
      ++ found.message ++ ", expected " ++ expected ++ "."
  | .badIdentifier fault =>
    "BSON error. Kind: An ObjectId-related error occurred: " ++ fault.message ++ "."
  | .badSlice => "could not convert slice to array"
  | .nullInside s =>
    "BSON error. Kind: Malformed BSON bytes. Message: cstring with interior null: "
      ++ Text.quoted s ++ "."

end Gateway.Json
