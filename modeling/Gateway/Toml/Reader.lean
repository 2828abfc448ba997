import Gateway.Json.Reader
import Gateway.Toml.Scalar
import Gateway.Toml.Strings

/-!
# Table files

A file is a list of lines; a line holds a header or an assignment, and a value may run
over several lines inside brackets and braces. The text is read into statements first,
which knows nothing of the tables, and the statements make the table
(`Table.ofStatements`).

The table is then handed to the readers of JSON as an outline without flaws. Two kinds
of numbers have no place in JSON: an integer of more than 64 bits passes as long as
nobody asks for its value, and one that does not fit its kind is a flaw for all.
-/

namespace Gateway.Toml

/-- Values nest, and dotted keys have parts, up to this many. -/
def maxDepth : Nat := 80

/-! ## Blanks -/

/-- A text without the blanks at its front. -/
def skipBlanks (cs : List Char) : List Char := cs.dropWhile isBlank

/-- A text without the blanks, line breaks and comments at its front. -/
def skipGaps (comment : Bool) : List Char → List Char
  | [] => []
  | '\n' :: rest => skipGaps false rest
  | '\r' :: '\n' :: rest => skipGaps false rest
  | c :: rest =>
    if comment && isPlain c then skipGaps true rest
    else if comment then c :: rest
    else if isBlank c then skipGaps false rest
    else if c = '#' then skipGaps true rest
    else c :: rest

def refuse {α : Type} : List Char → Except Fault α
  | [] => .error .unexpectedEnd
  | c :: _ => .error (.unexpected c)

def expect (c : Char) : List Char → Except Fault (List Char)
  | d :: rest => if d = c then .ok rest else .error (.unexpected d)
  | [] => .error .unexpectedEnd

/-- What follows the end of a line, which only a comment may precede. -/
def endLine (cs : List Char) : Except Fault (List Char) :=
  let rest := match skipBlanks cs with
    | '#' :: rest => rest.dropWhile isPlain
    | rest => rest
  if rest.isEmpty || atBreak rest then .ok (dropBreak rest) else refuse rest

/-! ## Keys -/

/-- The characters of a key without quotes. -/
def isBare (c : Char) : Bool :=
  Decimal.isDigit c || ('a' ≤ c && c ≤ 'z') || ('A' ≤ c && c ≤ 'Z') || c = '-' || c = '_'

/-- One part of a key: bare, or a string with one quote at each end. -/
def readPart (cs : List Char) : Except Fault (String × List Char) :=
  match cs with
  | '"' :: _ => readShort cs
  | '\'' :: _ => readShort cs
  | cs =>
    let name := cs.takeWhile isBare
    if name.isEmpty then refuse cs else .ok (String.ofList name, cs.dropWhile isBare)

/-- A key of at most `room` parts between dots, and the blanks around it. -/
def readKey : Nat → List Char → Except Fault (KeyPath × List Char)
  | 0, _ => .error .tooDeep
  | room + 1, cs => do
    let (name, rest) ← readPart (skipBlanks cs)
    match skipBlanks rest with
    | '.' :: rest => do
      let (place, rest) ← readKey room rest
      pure (⟨name :: place.above, place.key⟩, rest)
    | rest => pure (⟨[], name⟩, rest)

/-! ## Values -/

def endsScalar (c : Char) : Bool := " \t\r\n#,=[]\x7b\x7d".toList.contains c

/-- The text of a scalar. One blank before a digit is part of it, as between a date and
a time of day. -/
def takeScalar (cs : List Char) : List Char × List Char :=
  let run := fun (cs : List Char) =>
    (cs.takeWhile fun c => !endsScalar c, cs.dropWhile fun c => !endsScalar c)
  match run cs with
  | (front, ' ' :: d :: rest) =>
    if Decimal.isDigit d then
      let (back, rest) := run (d :: rest)
      (front ++ ' ' :: back, rest)
    else (front, ' ' :: d :: rest)
  | r => r

/-- The items of a list behind its opening bracket; the last may have a comma. -/
def readItems (item : List Char → Except Fault (Value × List Char)) :
    Nat → List Char → Except Fault (List Value × List Char)
  | 0, _ => .error .unexpectedEnd
  | fuel + 1, cs =>
    match skipGaps false cs with
    | ']' :: rest => .ok ([], rest)
    | cs => do
      let (v, rest) ← item cs
      match skipGaps false rest with
      | ']' :: rest => pure ([v], rest)
      | ',' :: rest => do
        let (vs, rest) ← readItems item fuel rest
        pure (v :: vs, rest)
      | rest => refuse rest

/-- An assignment by a reader of its value. What may stand on both sides of the equals
sign is passed over by `skip`. -/
def readAssignment (skip : List Char → List Char)
    (value : List Char → Except Fault (Value × List Char)) (cs : List Char) :
    Except Fault (Assignment × List Char) := do
  let (place, rest) ← readKey maxDepth cs
  let rest ← expect '=' (skip rest)
  let (v, rest) ← value (skip rest)
  pure (⟨place, v⟩, rest)

/-- The assignments between braces behind the opening one, which may break lines
anywhere but inside a key; the last may have a comma. -/
def readMembers (value : List Char → Except Fault (Value × List Char)) :
    Nat → List Char → Except Fault (List Assignment × List Char)
  | 0, _ => .error .unexpectedEnd
  | fuel + 1, cs =>
    match skipGaps false cs with
    | '}' :: rest => .ok ([], rest)
    | cs => do
      let (a, rest) ← readAssignment (skipGaps false) value cs
      match skipGaps false rest with
      | '}' :: rest => pure ([a], rest)
      | ',' :: rest => do
        let (as, rest) ← readMembers value fuel rest
        pure (a :: as, rest)
      | rest => refuse rest

/-- A value that opens at most `room` brackets and braces inside one another. -/
def readValue : Nat → List Char → Except Fault (Value × List Char)
  | _, '"' :: rest => (readString ('"' :: rest)).map fun (s, rest) => (.string s, rest)
  | _, '\'' :: rest => (readString ('\'' :: rest)).map fun (s, rest) => (.string s, rest)
  | 0, '[' :: _ => .error .tooDeep
  | 0, '{' :: _ => .error .tooDeep
  | room + 1, '[' :: rest =>
    (readItems (readValue room) (rest.length + 1) rest).map fun (vs, rest) => (.array vs, rest)
  | room + 1, '{' :: rest => do
    let (as, rest) ← readMembers (readValue room) (rest.length + 1) rest
    let t ← Table.defineAll [] as
    pure (.table .closed t, rest)
  | _, cs =>
    let (text, rest) := takeScalar cs
    match readScalar text with
    | some v => .ok (v, rest)
    | none => if text.isEmpty then refuse cs else .error (.badScalar (String.ofList text))

/-! ## Files -/

/-- One statement at the front of a text, with the end of its line. -/
def readStatement : List Char → Except Fault (Statement × List Char)
  | '[' :: '[' :: rest => do
    let (place, rest) ← readKey maxDepth rest
    let rest ← expect ']' rest
    let rest ← expect ']' rest
    let rest ← endLine rest
    pure (.head (.element place), rest)
  | '[' :: rest => do
    let (place, rest) ← readKey maxDepth rest
    let rest ← expect ']' rest
    let rest ← endLine rest
    pure (.head (.table place), rest)
  | cs => do
    let (a, rest) ← readAssignment skipBlanks (readValue maxDepth) cs
    let rest ← endLine rest
    pure (.assign a, rest)

/-- The statements of a text. Each takes at least one character, so as much fuel as
there are characters suffices. -/
def readStatements : Nat → List Char → Except Fault (List Statement)
  | 0, _ => .error .unexpectedEnd
  | fuel + 1, cs =>
    match skipGaps false cs with
    | [] => .ok []
    | cs => do
      let (s, rest) ← readStatement cs
      let ss ← readStatements fuel rest
      pure (s :: ss)

/-- The table of a text. A byte order mark at its front is no part of it. -/
def Table.ofText (s : String) : Except Fault Table := do
  let cs := match s.toList with
    | '\uFEFF' :: cs => cs
    | cs => cs
  let statements ← readStatements (cs.length + 1) cs
  Table.ofStatements statements

/-! ## Tables as outlines -/

open Json (Outline)

/-- An integer as an outline: a word of 64 bits as it is, one of 128 bits as a number
without a value, and a longer one as a flaw. -/
def integerOutline (n : Int) : Outline :=
  if 0 ≤ n then
    if n ≤ Decimal.maxOfBits 64 then .number (.ok (.natural (UInt64.ofNat n.toNat)))
    else if n ≤ Decimal.maxOfBits 128 then .number (.error .numberOutOfRange)
    else .broken (.plain .numberOutOfRange)
  else if -n ≤ Decimal.maxOfBits 63 + 1 then .number (.ok (.negative (Int64.ofInt n)))
  else if -n ≤ Decimal.maxOfBits 127 + 1 then .number (.error .numberOutOfRange)
  else .broken (.plain .numberOutOfRange)

mutual

/-- A value as an outline. A moment is an object with one field that no record has. -/
def Value.outline : Value → Outline
  | .string s => .string s
  | .integer n => integerOutline n
  | .float x => .number (.ok (.double x))
  | .overflow => .broken (.plain .numberOutOfRange)
  | .bool b => .bool b
  | .moment text => .object [(.ok "$moment", .string text)] .closed
  | .array items => .array (outlineItems items) .closed
  | .table _ entries => .object (outlineEntries entries) .closed
  | .tables earlier last =>
    .array (outlineTables earlier ++ [.object (outlineEntries last) .closed]) .closed

def outlineItems : List Value → List Outline
  | [] => []
  | v :: vs => v.outline :: outlineItems vs

def outlineEntries : List (String × Value) → List (Json.Key × Outline)
  | [] => []
  | (k, v) :: es => (.ok k, v.outline) :: outlineEntries es

def outlineTables : List (List (String × Value)) → List Outline
  | [] => []
  | t :: ts => .object (outlineEntries t) .closed :: outlineTables ts

end

def Table.outline (t : Table) : Outline := .object (outlineEntries t) .closed

def readText {α : Type} (read : Json.Scope → Outline → Except Json.Fault α) (s : String) :
    Except Fault α := do
  let t ← Table.ofText s
  (read .table t.outline).mapError .mistaken

end Gateway.Toml
