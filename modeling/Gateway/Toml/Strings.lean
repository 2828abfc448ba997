import Gateway.Bytes.Hex
import Gateway.Toml.Basic

/-!
# Strings of table files

A string stands between single or double quotes, one or three of each. Double quotes
allow escapes; three quotes allow line breaks, of which one directly behind the opening
is not part of the string, and up to two more quotes directly before the closing are.

Both readers go character by character and keep what an escape still wants as a `Mode`.
-/

namespace Gateway.Toml

/-- The characters that may stand as they are in a line of text: tabs, and everything
that is no control character. -/
def isPlain (c : Char) : Bool := c = '\t' || (32 ≤ c.toNat && c.toNat ≠ 127)

def isBlank (c : Char) : Bool := c = ' ' || c = '\t'

def atBreak : List Char → Bool
  | '\n' :: _ => true
  | '\r' :: '\n' :: _ => true
  | _ => false

/-- A text without a line break at its front. -/
def dropBreak : List Char → List Char
  | '\n' :: rest => rest
  | '\r' :: '\n' :: rest => rest
  | cs => cs

/-- What a string's closing quotes leave: the quotes that are still part of the string,
and the rest. -/
def closing? (long : Bool) (quote : Char) (cs : List Char) : Option (List Char × List Char) :=
  let quotes := if long then 3 else 1
  if cs.take quotes = List.replicate quotes quote then
    let rest := cs.drop quotes
    let kept := if long then (rest.takeWhile (· = quote)).take 2 else []
    some (kept, rest.drop kept.length)
  else none

/-- Puts a character in front of a string that has been read. -/
def prepend (c : Char) (r : Except Fault (List Char × List Char)) :
    Except Fault (List Char × List Char) :=
  r.map fun (s, rest) => (c :: s, rest)

/-- A character as part of a string: a line break only in a long one. -/
def isPart (long : Bool) (cs : List Char) : Bool :=
  match cs with
  | [] => false
  | c :: _ => isPlain c || (long && atBreak cs)

/-- The string behind single quotes, and the rest. -/
def readLiteral (long : Bool) : List Char → Except Fault (List Char × List Char)
  | [] => .error .unexpectedEnd
  | c :: rest =>
    match closing? long '\'' (c :: rest) with
    | some found => .ok found
    | none =>
      if isPart long (c :: rest) then prepend c (readLiteral long rest)
      else .error (.unexpected c)

/-! ## Escapes -/

/-- What the characters before have left open. -/
inductive Mode where
  | text
  /-- Behind a backslash. -/
  | escape
  /-- Inside the digits of a code point. -/
  | digits (left value : Nat)
  /-- Behind a backslash at the end of a line: blanks and line breaks are dropped, and a
  line break must be among them. -/
  | gap (broken : Bool)
deriving DecidableEq, Repr

def unescape? (c : Char) : Option Char :=
  if c = 'b' then some '\x08'
  else if c = 't' then some '\t'
  else if c = 'n' then some '\n'
  else if c = 'f' then some '\x0c'
  else if c = 'r' then some '\r'
  else if c = 'e' then some '\x1b'
  else if c = '"' then some '"'
  else if c = '\\' then some '\\'
  else none

/-- The number of digits of an escape by code point. -/
def escapeDigits? (c : Char) : Option Nat :=
  if c = 'x' then some 2 else if c = 'u' then some 4 else if c = 'U' then some 8 else none

/-- The string behind double quotes, and the rest. -/
def readBasic (long : Bool) : Mode → List Char → Except Fault (List Char × List Char)
  | _, [] => .error .unexpectedEnd
  | .escape, c :: rest =>
    match unescape? c, escapeDigits? c with
    | some u, _ => prepend u (readBasic long .text rest)
    | none, some n => readBasic long (.digits n 0) rest
    | none, none =>
      if long && (isBlank c || atBreak (c :: rest)) then
        readBasic long (.gap (c = '\n')) rest
      else .error .badEscape
  | .digits left value, c :: rest =>
    match Hex.value? c with
    | none => .error .badEscape
    | some d =>
      let value := 16 * value + d
      if 1 < left then readBasic long (.digits (left - 1) value) rest
      else if value.isValidChar then prepend (Char.ofNat value) (readBasic long .text rest)
      else .error .badEscape
  | mode, c :: rest =>
    let dropped := match mode with
      | .gap _ => isBlank c || atBreak (c :: rest)
      | _ => false
    if dropped then readBasic long (.gap (mode = .gap true || c = '\n')) rest
    else if mode = .gap false then .error .badEscape
    else
      match closing? long '"' (c :: rest) with
      | some found => .ok found
      | none =>
        if c = '\\' then readBasic long .escape rest
        else if isPart long (c :: rest) then prepend c (readBasic long .text rest)
        else .error (.unexpected c)

/-! ## Both kinds -/

/-- What was read, as a string. -/
def packed (r : Except Fault (List Char × List Char)) : Except Fault (String × List Char) :=
  r.map fun (s, rest) => (String.ofList s, rest)

/-- Reads a string of either kind with one quote at each end. -/
def readShort : List Char → Except Fault (String × List Char)
  | '"' :: rest => packed (readBasic false .text rest)
  | '\'' :: rest => packed (readLiteral false rest)
  | c :: _ => .error (.unexpected c)
  | [] => .error .unexpectedEnd

/-- Reads a string of either kind with one quote or three at each end. -/
def readString : List Char → Except Fault (String × List Char)
  | '"' :: '"' :: '"' :: rest => packed (readBasic true .text (dropBreak rest))
  | '\'' :: '\'' :: '\'' :: rest => packed (readLiteral true (dropBreak rest))
  | cs => readShort cs

end Gateway.Toml
