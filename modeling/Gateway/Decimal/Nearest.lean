import Gateway.Decimal.Natural

/-!
# Doubles from decimals

The double nearest to a decimal, and the free form in which a document writes a
double as text. Magnitudes far outside the range of doubles are settled from their
decimal size alone, so an exponent of any length costs nothing.
-/

namespace Gateway.Decimal

def infinity : Float := 1.0 / 0.0

/-- A value that is not a number. -/
def notANumber : Float := 0.0 / 0.0

/-- The double nearest to `significand * 10 ^ exponent`. -/
def nearest (significand : Nat) (exponent : Int) : Float :=
  let size := (digits significand).length + exponent
  if significand = 0 then 0.0
  else if 310 < size then infinity
  else if size < -330 then 0.0
  else Float.ofScientific significand (exponent < 0) exponent.natAbs

/-- The exponent of a number, read after its mark: one optional sign and at least
one digit, with nothing behind. -/
def readExponent (cs : List Char) : Option Int :=
  let (negative, ds) := match cs with
    | '-' :: ds => (true, ds)
    | '+' :: ds => (false, ds)
    | ds => (false, ds)
  if ds.isEmpty || !ds.all isDigit then none
  else some (if negative then -(ofDigits ds : Int) else (ofDigits ds : Int))

/-- An unsigned decimal number: digits with at most one point among them, at least
one digit, and an optional exponent. -/
def readMagnitude (cs : List Char) : Option Float :=
  let whole := cs.takeWhile isDigit
  let rest := cs.dropWhile isDigit
  let (fraction, rest) := match rest with
    | '.' :: more => (more.takeWhile isDigit, more.dropWhile isDigit)
    | more => ([], more)
  if whole.isEmpty && fraction.isEmpty then none
  else
    let value := fun (e : Int) => nearest (ofDigits (whole ++ fraction)) (e - fraction.length)
    match rest with
    | [] => some (value 0)
    | 'e' :: more => (readExponent more).map value
    | 'E' :: more => (readExponent more).map value
    | _ => none

/-- A double in its free form: an optional sign, then a decimal number or, in any
case of its letters, a word for infinity or for no number. -/
def readDouble (cs : List Char) : Option Float :=
  let (negative, body) := match cs with
    | '-' :: body => (true, body)
    | '+' :: body => (false, body)
    | body => (false, body)
  let word := String.ofList (body.map Char.toLower)
  let magnitude :=
    if word = "inf" || word = "infinity" then some infinity
    else if word = "nan" then some notANumber
    else readMagnitude body
  magnitude.map fun x => if negative then -x else x

end Gateway.Decimal
