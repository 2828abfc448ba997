import Gateway.Json.Outline
import Gateway.Decimal.Nearest

/-!
# Numbers in JSON texts

A numeral is the sign, the digits and the exponent as they stand in the text. It is
one number whatever reader it meets, so reading its value is apart from finding its
end.

The value of a numeral with a fraction or an exponent, or too large for an integer,
is a double found in steps: as many digits as fit 64 bits are one whole number, and
that is scaled by powers of ten. The steps round on their own, so the last place may
differ from that of the nearest double.
-/

namespace Gateway.Json

structure Numeral where
  negative : Bool
  whole : List Char
  /-- The digits behind the point, if there is one. -/
  fraction : Option (List Char)
  /-- The sign and the digits of the exponent, if there is one. -/
  exponent : Option (Bool × List Char)
deriving DecidableEq, Repr

def wordBound : Nat := Decimal.maxOfBits 64

/-- The greatest exponent that is counted exactly. -/
def exponentBound : Nat := Decimal.maxOfBits 31

/-- Takes digits onto a number while it stays a word; returns it and the digits left. -/
def takeWord : Nat → List Char → Nat × List Char
  | acc, [] => (acc, [])
  | acc, c :: cs =>
    let next := acc * 10 + Decimal.digitValue c
    if next ≤ wordBound then takeWord next cs else (acc, c :: cs)

/-- Divides by ten to the 308th until the rest of the exponent is a power that a
double holds. Three steps take every word to zero. -/
def scaleDown : Nat → Float → Nat → Float
  | 0, x, _ => x
  | steps + 1, x, e =>
    if e ≤ 308 then x / Float.ofScientific 1 false e
    else if x == 0.0 then x
    else scaleDown steps (x / Float.ofScientific 1 false 308) (e - 308)

def scaled (significand : Nat) (e : Int) : Except Malformed Float :=
  let x := Float.ofScientific significand false 0
  if e < 0 then .ok (scaleDown 4 x e.natAbs)
  else if x == 0.0 then .ok x
  else if 308 < e then .error .numberOutOfRange
  else
    let y := x * Float.ofScientific 1 false e.toNat
    if y.isFinite then .ok y else .error .numberOutOfRange

def Numeral.magnitude (n : Numeral) : Except Malformed Float :=
  let (significand, dropped) := takeWord 0 n.whole
  let fraction := n.fraction.getD []
  let (significand, left) := takeWord significand fraction
  let places : Int := dropped.length - (fraction.length - left.length : Nat)
  match n.exponent with
  | none => scaled significand places
  | some (negative, ds) =>
    let e := Decimal.ofDigits ds
    if exponentBound < e then
      if significand = 0 || negative then .ok 0.0 else .error .numberOutOfRange
    else scaled significand (if negative then places - e else places + e)

def Numeral.value (n : Numeral) : Except Malformed Number :=
  let double := n.magnitude.map fun x => Number.double (if n.negative then -x else x)
  match n.fraction, n.exponent with
  | none, none =>
    let whole := Decimal.ofDigits n.whole
    if n.negative then
      if 0 < whole ∧ whole ≤ Decimal.maxOfBits 63 + 1 then .ok (.negative (Int64.ofInt (-whole)))
      else double
    else if whole ≤ wordBound then .ok (.natural (UInt64.ofNat whole))
    else double
  | _, _ => double

/-- A numeral at the front of a text, or the flaw in it. -/
inductive NumeralScan where
  | done (numeral : Numeral) (rest : List Char)
  | broken (flaw : Flaw)

/-- The flaw of a numeral that lacks a digit before `rest`. -/
def lackOfDigit (rest : List Char) : NumeralScan :=
  let read := if rest.isEmpty then .endInValue else .badNumber
  .broken ⟨read, .badNumber, .noValue, read⟩

/-- The exponent of a numeral, if one follows. -/
def scanExponent (negative : Bool) (whole : List Char) (fraction : Option (List Char))
    (cs : List Char) : NumeralScan :=
  let digitsOf := fun (minus : Bool) (rest : List Char) =>
    let ds := rest.takeWhile Decimal.isDigit
    if ds.isEmpty then lackOfDigit rest
    else .done ⟨negative, whole, fraction, some (minus, ds)⟩ (rest.dropWhile Decimal.isDigit)
  match cs with
  | c :: rest =>
    if c = 'e' ∨ c = 'E' then
      match rest with
      | '+' :: rest => digitsOf false rest
      | '-' :: rest => digitsOf true rest
      | rest => digitsOf false rest
    else .done ⟨negative, whole, fraction, none⟩ cs
  | [] => .done ⟨negative, whole, fraction, none⟩ []

/-- The fraction of a numeral, if one follows, and then its exponent. -/
def scanFraction (negative : Bool) (whole : List Char) : List Char → NumeralScan
  | '.' :: rest =>
    let ds := rest.takeWhile Decimal.isDigit
    if ds.isEmpty then lackOfDigit rest
    else scanExponent negative whole (some ds) (rest.dropWhile Decimal.isDigit)
  | rest => scanExponent negative whole none rest

/-- A numeral behind its sign. A leading zero stands alone. -/
def scanMagnitude (negative : Bool) (cs : List Char) : NumeralScan :=
  let ds := cs.takeWhile Decimal.isDigit
  let rest := cs.dropWhile Decimal.isDigit
  match ds with
  | [] => lackOfDigit cs
  | '0' :: _ :: _ => .broken ⟨.badNumber, .badNumber, .noValue, .badNumber⟩
  | _ => scanFraction negative ds rest

/-- A numeral at the front of a text that begins with a minus sign or a digit. -/
def scanNumeral : List Char → NumeralScan
  | '-' :: cs => scanMagnitude true cs
  | cs => scanMagnitude false cs

end Gateway.Json
