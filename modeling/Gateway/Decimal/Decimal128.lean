import Gateway.Decimal.Natural

/-!
# Decimals of 128 bits

A decimal of this format is a coefficient of at most 34 digits with an exponent
between -6176 and 6111, an infinity, or not a number. It is kept as its bits, since
several patterns have one magnitude: a coefficient that is too large counts as zero, and
most bits of an infinity mean nothing.

Reading keeps every digit or fails: a coefficient is cut, or filled up, only by zeros,
and no digits at all are zero. Writing gives the canonical text, positional for small
scales and scientific for the rest.
-/

namespace Gateway

/-- What a decimal is worth apart from its sign. -/
inductive Magnitude where
  | finite (coefficient : Nat) (exponent : Int)
  | infinity
  | notANumber (signalling : Bool)
deriving DecidableEq, Repr

structure Decimal128 where
  bits : BitVec 128
deriving DecidableEq, Repr

namespace Decimal128

/-! ## The format -/

def precision : Nat := 34

def leastExponent : Int := -6176

def greatestExponent : Int := 6111

/-- The bound of the numbers in which an exponent is counted. -/
def exponentBound : Nat := Decimal.maxOfBits 127

def greatestCoefficient : Nat := Nat.pow 10 precision - 1

/-! ## Bits -/

/-- The bits of a number from the given place on, so many of them. -/
def field (n place width : Nat) : Nat := n / Nat.pow 2 place % Nat.pow 2 width

def exponentOfField (n : Nat) : Int := leastExponent + n

def negative (d : Decimal128) : Bool := field d.bits.toNat 127 1 = 1

/-- The magnitude of the bits. Four ones behind the sign make a value that is not
finite; two ones shift the exponent to make room for a coefficient that is too large in
any case. -/
def magnitude (d : Decimal128) : Magnitude :=
  let n := d.bits.toNat
  if field n 123 4 = 15 then
    if field n 122 1 = 1 then .notANumber (field n 121 1 = 1) else .infinity
  else if field n 125 2 = 3 then .finite 0 (exponentOfField (field n 111 14))
  else
    let coefficient := field n 0 113
    .finite (if greatestCoefficient < coefficient then 0 else coefficient)
      (exponentOfField (field n 113 14))

def ofParts (negative : Bool) (m : Magnitude) : Decimal128 :=
  let rest := match m with
    | .finite c e => (e - leastExponent).toNat * Nat.pow 2 113 + c
    | .infinity => 15 * Nat.pow 2 123
    | .notANumber signalling =>
      15 * Nat.pow 2 123 + Nat.pow 2 122 + if signalling then Nat.pow 2 121 else 0
  ⟨BitVec.ofNat 128 ((if negative then Nat.pow 2 127 else 0) + rest)⟩

/-- The decimal of sixteen bytes, of which the first is the lowest. -/
def ofBytes? (bytes : List UInt8) : Option Decimal128 :=
  if bytes.length = 16 then
    some ⟨BitVec.ofNat 128 (bytes.foldr (fun b n => n * 256 + b.toNat) 0)⟩
  else none

/-! ## Reading -/

/-- The text before and after the first `mark`, if there is one. -/
def splitAtFirst (mark : Char) (cs : List Char) : Option (List Char × List Char) :=
  match cs.dropWhile (· ≠ mark) with
  | [] => none
  | _ :: rest => some (cs.takeWhile (· ≠ mark), rest)

/-- An exponent that is small enough to be counted. -/
def countable (e : Int) : Option Int :=
  if -(exponentBound : Int) - 1 ≤ e ∧ e ≤ exponentBound then some e else none

/-- The first `keep` digits, if all that is cut are zeros. -/
def cutZeros (cs : List Char) (keep : Nat) : Option (List Char) :=
  if (cs.drop keep).all (· = '0') then some (cs.take keep) else none

/-- Leading zeros go; one stands if there is nothing else. -/
def stripZeros (cs : List Char) : List Char :=
  match cs.dropWhile (· = '0') with
  | [] => ['0']
  | rest => rest

/-- Shortens a coefficient that is too long. -/
def fitPrecision (cs : List Char) (e : Int) : Option (List Char × Int) :=
  if precision < cs.length then do
    let kept ← cutZeros cs precision
    let e ← countable (e + (cs.length - precision : Nat))
    pure (kept, e)
  else some (cs, e)

/-- Brings an exponent below the least one up to it, at the cost of trailing zeros. -/
def raiseExponent (cs : List Char) (e : Int) : Option (List Char × Int) :=
  if e < leastExponent then
    if cs = ['0'] then some (cs, leastExponent)
    else
      let excess := (leastExponent - e).toNat
      if cs.length < excess then none
      else (cutZeros cs (cs.length - excess)).map fun kept => (kept, leastExponent)
  else some (cs, e)

/-- Brings an exponent above the greatest one down to it, by zeros at the end. -/
def lowerExponent (cs : List Char) (e : Int) : Option (List Char × Int) :=
  if greatestExponent < e then
    if cs = ['0'] then some (cs, greatestExponent)
    else
      let excess := (e - greatestExponent).toNat
      if precision < cs.length + excess then none
      else some (cs ++ List.replicate excess '0', greatestExponent)
  else some (cs, e)

/-- A finite decimal without its leading sign, in lower case. -/
def readFinite (cs : List Char) : Option Magnitude := do
  let (mantissa, exponent) := (splitAtFirst 'e' cs).getD (cs, ['0'])
  let e ← (Decimal.readSigned exponentBound exponent).toOption
  let (joined, e) ← match splitAtFirst '.' mantissa with
    | none => some (mantissa, e)
    | some (whole, fraction) =>
      (countable (e - fraction.length)).map fun e => (whole ++ fraction, e)
  let (cs, e) ← fitPrecision (stripZeros joined) e
  let (cs, e) ← raiseExponent cs e
  let (cs, e) ← lowerExponent cs e
  let coefficient ← (Decimal.readUnsigned (Decimal.maxOfBits 128) cs).toOption
  pure (.finite coefficient e)

/-- A decimal from its text, in any case of its letters. -/
def read? (s : String) : Option Decimal128 :=
  let (negative, body) := match s.toList with
    | '-' :: body => (true, body)
    | '+' :: body => (false, body)
    | body => (false, body)
  let body := body.map Char.toLower
  let magnitude : Option Magnitude :=
    match String.ofList body with
    | "nan" => some (.notANumber false)
    | "snan" => some (.notANumber true)
    | "infinity" => some .infinity
    | "inf" => some .infinity
    | _ => readFinite body
  magnitude.map (ofParts negative)

/-! ## Writing -/

/-- A finite magnitude: positional when the exponent is not positive and the first
digit stands at most six places behind the point. -/
def writeFinite (coefficient : Nat) (exponent : Int) : List Char :=
  let cs := Decimal.digits coefficient
  let adjusted := exponent + cs.length - 1
  if exponent ≤ 0 ∧ -6 ≤ adjusted then
    let places := (-exponent).toNat
    if places = 0 then cs
    else if cs.length ≤ places then
      '0' :: '.' :: (List.replicate (places - cs.length) '0' ++ cs)
    else cs.take (cs.length - places) ++ '.' :: cs.drop (cs.length - places)
  else
    let mantissa := match cs with
      | [] => []
      | [c] => [c]
      | c :: rest => c :: '.' :: rest
    mantissa ++ 'E' :: ((if 0 < adjusted then ['+'] else []) ++ Decimal.signedDigits adjusted)

/-- The canonical text. What is not a number has no sign. -/
def text (d : Decimal128) : String :=
  let sign := if d.negative then "-" else ""
  match d.magnitude with
  | .notANumber _ => "NaN"
  | .infinity => sign ++ "Infinity"
  | .finite c e => sign ++ String.ofList (writeFinite c e)

end Decimal128

end Gateway
