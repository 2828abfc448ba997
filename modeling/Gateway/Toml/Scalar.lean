import Gateway.Bytes.Hex
import Gateway.Json.Numeral
import Gateway.Time.Instant
import Gateway.Toml.Basic

/-!
# Scalars of table files

A scalar is a value written without quotes or brackets: a word, a number, or a date, a
time of day or both. Its kind follows from its text alone.

A number is one as in JSON texts, with three liberties: it may have a plus sign, its
digits may be grouped by single underscores, and an integer may be written to another
base. An integer holds 128 bits and a float has to be finite; a number past that stays
a scalar of its kind and is refused by whoever looks at it.
-/

namespace Gateway.Toml

/-! ## Numbers -/

/-- The text without the underscores that group its digits; each has to stand between
two of them. `inside` says whether a digit stands before the text. -/
def ungroup (digit : Char → Bool) : Bool → List Char → Option (List Char)
  | _, [] => some []
  | inside, c :: rest =>
    if c = '_' then
      if inside && (rest.head?.map digit).getD false then ungroup digit false rest else none
    else (ungroup digit (digit c) rest).map (c :: ·)

/-- A natural number in the digits of a base of at most 16. -/
def readBase (base : Nat) (cs : List Char) : Option Nat :=
  if cs.isEmpty then none
  else cs.foldl (fun acc c => do
    let d ← Hex.value? c
    if d < base then pure (base * (← acc) + d) else none) (some 0)

def readBased (base : Nat) (cs : List Char) : Option Value := do
  let ds ← ungroup (fun c => (Hex.value? c).isSome) false cs
  let n ← readBase base ds
  pure (.integer n)

def readDecimal (negative : Bool) (cs : List Char) : Option Value := do
  let body ← ungroup Decimal.isDigit false cs
  match Json.scanMagnitude negative body with
  | .done n [] =>
    match n.fraction, n.exponent with
    | none, none =>
      let whole := Decimal.ofDigits n.whole
      pure (.integer (if negative then -(whole : Int) else whole))
    | _, _ =>
      let x ← Decimal.readMagnitude body
      pure (if x.isInf then .overflow else .float (if negative then -x else x))
  | _ => none

/-- A number or a word for one behind its sign. -/
def readSigned (negative : Bool) (cs : List Char) : Option Value :=
  if cs = ['i', 'n', 'f'] then
    some (.float (if negative then -Decimal.infinity else Decimal.infinity))
  else if cs = ['n', 'a', 'n'] then some (.float Decimal.notANumber)
  else readDecimal negative cs

/-- A number. Only one without a sign may be written to another base. -/
def readNumber : List Char → Option Value
  | '0' :: 'x' :: rest => readBased 16 rest
  | '0' :: 'o' :: rest => readBased 8 rest
  | '0' :: 'b' :: rest => readBased 2 rest
  | '-' :: rest => readSigned true rest
  | '+' :: rest => readSigned false rest
  | cs => readSigned false cs

/-! ## Moments -/

def takeDate (cs : List Char) : Option (List Char) := do
  let (year, rest) ← Time.takeNumber 4 cs
  let rest ← Time.takeChar '-' rest
  let (month, rest) ← Time.takeNumber 2 rest
  let rest ← Time.takeChar '-' rest
  let (day, rest) ← Time.takeNumber 2 rest
  if month = 0 || 12 < month || day = 0 || Time.daysInMonth year month < day then none
  else pure rest

/-- What follows a time of day. Its seconds may be left out, and a fraction stands only
behind seconds. -/
def takeTime (cs : List Char) : Option (List Char) := do
  let (hour, rest) ← Time.takeNumber 2 cs
  let rest ← Time.takeChar ':' rest
  let (minute, rest) ← Time.takeNumber 2 rest
  if 23 < hour || 59 < minute then none
  else
    match rest with
    | ':' :: rest => do
      let (second, rest) ← Time.takeNumber 2 rest
      if 60 < second then none
      else
        let (_, rest) ← Time.takeFraction rest
        pure rest
    | rest => pure rest

/-- A date, a time of day, or both with an optional offset from UTC. -/
def isMoment (cs : List Char) : Bool :=
  match takeDate cs with
  | some [] => true
  | some (c :: rest) =>
    (c = 'T' || c = 't' || c = ' ') &&
      match takeTime rest with
      | some [] => true
      | some rest => (Time.readOffset rest).isSome
      | none => false
  | none => takeTime cs = some []

/-! ## All kinds -/

def readScalar (cs : List Char) : Option Value :=
  if cs = ['t', 'r', 'u', 'e'] then some (.bool true)
  else if cs = ['f', 'a', 'l', 's', 'e'] then some (.bool false)
  else if isMoment cs then some (.moment (String.ofList cs))
  else readNumber cs

end Gateway.Toml
