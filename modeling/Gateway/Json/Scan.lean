import Gateway.Json.Numeral
import Gateway.Bytes.Hex

/-!
# Laying out a text

From characters to an outline and the characters left behind it. Nothing is left
behind a flaw, so a layout with a rest has none. A string is first taken apart into
characters, controls and code units written by number; these are then put together
twice, as a text (`assemble`) and as bytes (`codePoints`), since a flaw further on is met
by every reader but half a surrogate pair only by one that wants the text.
-/

namespace Gateway.Json

/-- The four characters that may stand between the tokens of a text. -/
def isSpace (c : Char) : Bool := c = ' ' || c = '\n' || c = '\t' || c = '\r'

/-- A text without the blanks at its front. -/
def skipSpace (cs : List Char) : List Char := cs.dropWhile isSpace

/-! ## Strings -/

/-- A part of a string: a character, a control that stands there without an escape, or
a code unit written by number. -/
inductive Piece where
  | char (c : Char)
  | control (c : Char)
  | unit (n : Nat)
deriving DecidableEq, Repr

/-- How a string ends. -/
inductive StringEnd where
  | closed (rest : List Char)
  | textEnd
  | badEscape
  /-- The four places behind the mark of a unit do not hold digits. -/
  | badUnit
deriving DecidableEq, Repr

def unescape? (c : Char) : Option Char :=
  if c = '"' then some '"'
  else if c = '\\' then some '\\'
  else if c = '/' then some '/'
  else if c = 'b' then some '\x08'
  else if c = 'f' then some '\x0c'
  else if c = 'n' then some '\n'
  else if c = 'r' then some '\r'
  else if c = 't' then some '\t'
  else none

def byteCount (cs : List Char) : Nat := cs.foldl (fun n c => n + c.utf8Size) 0

def scanPieces : List Char → List Piece × StringEnd
  | [] => ([], .textEnd)
  | '"' :: rest => ([], .closed rest)
  | ['\\'] => ([], .textEnd)
  | '\\' :: 'u' :: a :: b :: c :: d :: rest =>
    match Hex.toNat? [a, b, c, d] with
    | some n =>
      let (ps, e) := scanPieces rest
      (.unit n :: ps, e)
    | none => ([], if byteCount (a :: b :: c :: d :: rest) < 4 then .textEnd else .badUnit)
  | '\\' :: 'u' :: rest => ([], if byteCount rest < 4 then .textEnd else .badUnit)
  | '\\' :: c :: rest =>
    match unescape? c with
    | some u =>
      let (ps, e) := scanPieces rest
      (.char u :: ps, e)
    | none => ([], .badEscape)
  | c :: rest =>
    let (ps, e) := scanPieces rest
    ((if c.toNat < 32 then .control c else .char c) :: ps, e)

def opensPair (n : Nat) : Bool := 0xD800 ≤ n && n ≤ 0xDBFF

def closesPair (n : Nat) : Bool := 0xDC00 ≤ n && n ≤ 0xDFFF

def ofPair (high low : Nat) : Nat := 0x10000 + (high - 0xD800) * 0x400 + (low - 0xDC00)

/-- What the opening half of a pair at the end of the parts is met by. -/
def pendingFault : StringEnd → Malformed
  | .textEnd => .endInString
  | .badUnit => .badEscape
  | _ => .unpairedSurrogate

/-- Puts the parts of a string together; fails at the first half of a surrogate pair
that has no other half. -/
def assemble (e : StringEnd) : List Piece → Except Malformed (List Char)
  | [] => .ok []
  | .char c :: ps => (assemble e ps).map (c :: ·)
  | .control _ :: _ => .error .controlInString
  | .unit n :: ps =>
    if closesPair n then .error .loneSurrogate
    else if opensPair n then
      match ps with
      | .unit m :: ps =>
        if closesPair m then (assemble e ps).map (Char.ofNat (ofPair n m) :: ·)
        else .error .loneSurrogate
      | [] => .error (pendingFault e)
      | _ => .error .unpairedSurrogate
    else (assemble e ps).map (Char.ofNat n :: ·)

/-- The bytes of a code point, which may be half a surrogate pair. -/
def codePointBytes (n : Nat) : List UInt8 :=
  let tail := fun (k : Nat) => UInt8.ofNat (0x80 + n / Nat.pow 64 k % 64)
  if n < 0x80 then [UInt8.ofNat n]
  else if n < 0x800 then [UInt8.ofNat (0xC0 + n / 64), tail 0]
  else if n < 0x10000 then [UInt8.ofNat (0xE0 + n / 4096), tail 1, tail 0]
  else [UInt8.ofNat (0xF0 + n / 262144), tail 2, tail 1, tail 0]

/-- The code points of the parts of a string. Two halves of a surrogate pair are one;
half a pair alone stands for itself. -/
def codePoints : List Piece → List Nat
  | [] => []
  | .char c :: ps => c.toNat :: codePoints ps
  | .control c :: ps => c.toNat :: codePoints ps
  | .unit n :: ps =>
    let rest := codePoints ps
    match ps with
    | .unit m :: _ =>
      if opensPair n && closesPair m then ofPair n m :: rest.drop 1 else n :: rest
    | _ => n :: rest

/-- Whether a part is a control without an escape. -/
def Piece.isControl : Piece → Bool
  | .control _ => true
  | _ => false

/-- What a reader meets at the end of a string that is not closed. -/
def StringEnd.malformed : StringEnd → Malformed
  | .textEnd => .endInString
  | _ => .badEscape

/-- A string behind its opening quote and the rest, or the flaw in it. -/
def scanString (cs : List Char) : Except Flaw (Outline × List Char) :=
  let (ps, e) := scanPieces cs
  let text := assemble e ps
  let control := ps.any Piece.isControl
  match e with
  | .closed rest =>
    match text with
    | .ok text => .ok (.string (String.ofList text), rest)
    | .error m =>
      let bytes := (codePoints ps).flatMap codePointBytes
      .ok (.raw ⟨bytes, m, if control then some .controlInString else none⟩, rest)
  | _ =>
    let read := match text with
      | .error m => m
      | .ok _ => e.malformed
    let skip := if control then .controlInString else e.malformed
    .error ⟨read, skip, read, e.malformed⟩

/-- A key behind its opening quote and the rest, or the flaw in it. A key that nobody
can pass over is flawed. -/
def scanKey (cs : List Char) : Except Flaw (Key × List Char) :=
  match scanString cs with
  | .ok (.string key, rest) => .ok (.ok key, rest)
  | .ok (.raw value, rest) =>
    match value.skip with
    | some m => .error ⟨value.read, m, value.read, m⟩
    | none => .ok (.error value.read, rest)
  | .ok (_, rest) => .ok (.error .keyNotString, rest)
  | .error flaw => .error flaw

/-! ## Values -/

/-- The rest of a text behind a word, or what is wrong with it. -/
def scanWord : List Char → List Char → Except Malformed (List Char)
  | [], cs => .ok cs
  | _ :: _, [] => .error .endInValue
  | w :: ws, c :: cs => if c = w then scanWord ws cs else .error .badWord

def scanLiteral (value : Outline) (word cs : List Char) : Outline × Option (List Char) :=
  match scanWord word cs with
  | .ok rest => (value, some rest)
  | .error m => (.broken ⟨m, m, .noValue, m⟩, none)

mutual

/-- The value at the front of a text, and the rest unless a flaw cuts it off. Each
step takes one of the `fuel`, which two for every character suffice for. -/
def scanValue : Nat → List Char → Outline × Option (List Char)
  | 0, _ => (.broken (.plain .endInValue), none)
  | fuel + 1, cs =>
    match skipSpace cs with
    | [] => (.broken (.plain .endInValue), none)
    | '[' :: rest =>
      match skipSpace rest with
      | [] => (.array [] .textEnd, none)
      | ']' :: rest => (.array [] .closed, some rest)
      | rest =>
        let (items, ending, rest) := scanItems fuel rest
        (.array items ending, rest)
    | '{' :: rest =>
      match skipSpace rest with
      | [] => (.object [] .textEnd, none)
      | '}' :: rest => (.object [] .closed, some rest)
      | rest =>
        let (members, ending, rest) := scanMembers fuel rest
        (.object members ending, rest)
    | '"' :: rest =>
      match scanString rest with
      | .ok (value, rest) => (value, some rest)
      | .error flaw => (.broken flaw, none)
    | 'n' :: rest => scanLiteral .null ['u', 'l', 'l'] rest
    | 't' :: rest => scanLiteral (.bool true) ['r', 'u', 'e'] rest
    | 'f' :: rest => scanLiteral (.bool false) ['a', 'l', 's', 'e'] rest
    | c :: rest =>
      if c = '-' ∨ Decimal.isDigit c then
        match scanNumeral (c :: rest) with
        | .done n rest => (.number n.value, some rest)
        | .broken flaw => (.broken flaw, none)
      else (.broken (.plain .noValue), none)

/-- The items of a list from one that has to follow. -/
def scanItems : Nat → List Char → List Outline × Ending × Option (List Char)
  | 0, _ => ([], .cut, none)
  | fuel + 1, cs =>
    match scanValue fuel cs with
    | (v, none) => ([v], .cut, none)
    | (v, some rest) =>
      match skipSpace rest with
      | [] => ([v], .textEnd, none)
      | ']' :: rest => ([v], .closed, some rest)
      | ',' :: rest =>
        match skipSpace rest with
        | [] => ([v], .commaEnd, none)
        | ']' :: _ => ([v], .commaClosed, none)
        | rest =>
          let (vs, ending, rest) := scanItems fuel rest
          (v :: vs, ending, rest)
      | _ => ([v], .stray, none)

/-- The members of an object from one that has to follow. -/
def scanMembers : Nat → List Char → List (Key × Outline) × Ending × Option (List Char)
  | 0, _ => ([], .cut, none)
  | fuel + 1, cs =>
    match cs with
    | '"' :: rest =>
      match scanKey rest with
      | .error flaw => ([], .badKey flaw, none)
      | .ok (key, rest) =>
        match skipSpace rest with
        | [] => ([(key, .broken (.plain .endInObject))], .cut, none)
        | ':' :: rest =>
          match scanValue fuel rest with
          | (v, none) => ([(key, v)], .cut, none)
          | (v, some rest) =>
            match skipSpace rest with
            | [] => ([(key, v)], .textEnd, none)
            | '}' :: rest => ([(key, v)], .closed, some rest)
            | ',' :: rest =>
              match skipSpace rest with
              | [] => ([(key, v)], .commaEnd, none)
              | '}' :: _ => ([(key, v)], .commaClosed, none)
              | rest =>
                let (ms, ending, rest) := scanMembers fuel rest
                ((key, v) :: ms, ending, rest)
            | _ => ([(key, v)], .stray, none)
        | _ => ([(key, .broken (.plain .noColon))], .cut, none)
    | _ => ([], .strayKey, none)

end

/-- A whole text: its value, and whether anything but blanks stands behind it. -/
structure Layout where
  value : Outline
  trailing : Bool
deriving Repr

def Layout.ofText (s : String) : Layout :=
  let (value, rest) := scanValue (2 * s.toList.length + 2) s.toList
  ⟨value, match rest with
    | some rest => !(skipSpace rest).isEmpty
    | none => false⟩

end Gateway.Json
