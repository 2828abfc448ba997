import Gateway.Decimal.Natural

/-!
# Shortest decimals of binary numbers

A finite binary64 value stands for an interval of reals: those that round to it.
Its decimal is the shortest one inside that interval and the nearest of those of
that length. The search goes over the decimal grids from coarse to fine in exact
arithmetic: on each grid only the two neighbours of the value can be the answer.

Which of two equally near decimals is taken and how the digits are set out — where
positional notation ends, whether a whole number keeps a fraction — is the business
of a `Layout`, one value per output.
-/

namespace Gateway.Decimal

/-! ## Which digits -/

/-- A finite, positive binary number `mantissa * 2 ^ exponent`. -/
structure Binary where
  mantissa : Nat
  exponent : Int
  /-- The number below is only half as far away as the number above. -/
  closeBelow : Bool
deriving Repr

def Binary.ofFloat (x : Float) : Binary :=
  let bits := x.toBits.toNat
  let field : Nat := bits / Nat.pow 2 52 % Nat.pow 2 11
  let fraction := bits % Nat.pow 2 52
  if field = 0 then ⟨fraction, -1074, false⟩
  else ⟨Nat.pow 2 52 + fraction, Int.ofNat field - 1075, fraction = 0 && 1 < field⟩

/-- `base ^ e` above the line of a fraction when `e` is positive, else 1. -/
def upper (base : Nat) (e : Int) : Nat := base.pow e.toNat

/-- `base ^ -e` below the line when `e` is negative, else 1. -/
def lower (base : Nat) (e : Int) : Nat := base.pow (-e).toNat

/-- Whether the decimal `d * 10 ^ p` rounds to the binary number. The two ends of
the interval are four times the mantissa less one or two and plus two, in quarters
of the last place; they belong to it when the mantissa is even. -/
def Binary.readsBack (b : Binary) (d : Nat) (p : Int) : Bool :=
  let quarter := b.exponent - 2
  let low := 4 * b.mantissa - (if b.closeBelow then 1 else 2)
  let high := 4 * b.mantissa + 2
  let decimal := d * upper 10 p * lower 2 quarter
  let left := low * upper 2 quarter * lower 10 p
  let right := high * upper 2 quarter * lower 10 p
  if b.mantissa % 2 = 0 then left ≤ decimal && decimal ≤ right
  else left < decimal && decimal < right

/-- The least `k` with the value below `10 ^ k`. No double has more than 330
places before its first digit, so shifting by that many loses no digit count. -/
def Binary.scale (b : Binary) : Int :=
  let shifted := b.mantissa * upper 2 b.exponent * upper 10 330 / lower 2 b.exponent
  (digits shifted).length - 330

/-- Which of two equally near decimals is taken. -/
inductive Tie where
  | toEven
  | upward
deriving DecidableEq, Repr

/-- The better of the two neighbours of the value on the grid `10 ^ p`, if any of
them reads back. -/
def Binary.onGrid (b : Binary) (tie : Tie) (p : Int) : Option Nat :=
  let above := b.mantissa * upper 2 b.exponent * lower 10 p
  let below := lower 2 b.exponent * upper 10 p
  let floor := above / below
  match b.readsBack floor p, b.readsBack (floor + 1) p with
  | false, false => none
  | true, false => some floor
  | false, true => some (floor + 1)
  | true, true =>
    match compare (2 * above) ((2 * floor + 1) * below) with
    | .lt => some floor
    | .gt => some (floor + 1)
    | .eq => some (if tie = .toEven ∧ floor % 2 = 0 then floor else floor + 1)

/-- The first of the next `fuel` grids, from coarse to fine, that holds an answer. -/
def Binary.search (b : Binary) (tie : Tie) : Nat → Int → Option (Nat × Int)
  | 0, _ => none
  | fuel + 1, p =>
    match b.onGrid tie p with
    | some d => some (d, p)
    | none => b.search tie fuel (p - 1)

/-- The significant digits of a positive value and its decimal exponent: the value
is the first digit, a point, the other digits, times ten to the exponent. Seventeen
digits always suffice; the exact value stands in where none is found. -/
def Binary.shortest (b : Binary) (tie : Tie) : List Char × Int :=
  let scale := b.scale
  let (d, p) := (b.search tie 17 (scale - 1)).getD
    (b.mantissa * upper 2 b.exponent * lower 5 b.exponent, min b.exponent 0)
  let cs := digits d
  let kept := (cs.reverse.dropWhile (· = '0')).reverse
  (kept, p + cs.length - 1)

/-! ## How they are set out -/

/-- The decisions of one output about numbers. -/
structure Layout where
  /-- The exponents written positionally; the rest are scientific. `none` is every exponent. -/
  positional : Option (Int × Int)
  /-- A whole number written positionally ends in `.0`. -/
  keepsFraction : Bool
  /-- A positive exponent has its sign written. -/
  plusSign : Bool
  tie : Tie
deriving Repr

/-- Whether the exponent is one that the layout writes positionally. -/
def Layout.isPositional (l : Layout) (e : Int) : Bool :=
  match l.positional with
  | none => true
  | some (low, high) => low ≤ e && e ≤ high

def Layout.positionally (l : Layout) (cs : List Char) (e : Int) : List Char :=
  let whole := if l.keepsFraction then ['.', '0'] else []
  if e < 0 then '0' :: '.' :: (List.replicate (-e - 1).toNat '0' ++ cs)
  else if cs.length ≤ e.toNat + 1 then
    cs ++ List.replicate (e.toNat + 1 - cs.length) '0' ++ whole
  else cs.take (e.toNat + 1) ++ '.' :: cs.drop (e.toNat + 1)

def Layout.scientific (l : Layout) (cs : List Char) (e : Int) : List Char :=
  let mantissa := match cs with
    | [] => []
    | [c] => [c]
    | c :: rest => c :: '.' :: rest
  mantissa ++ 'e' :: ((if 0 ≤ e && l.plusSign then ['+'] else []) ++ signedDigits e)

/-- A finite double. Zero keeps its sign. -/
def Layout.write (l : Layout) (x : Float) : List Char :=
  let body :=
    if x == 0.0 then '0' :: (if l.keepsFraction then ['.', '0'] else [])
    else
      let (cs, e) := (Binary.ofFloat x).shortest l.tie
      if l.isPositional e then l.positionally cs e else l.scientific cs e
  if x.toBits.toNat ≤ maxOfBits 63 then body else '-' :: body

/-- Numbers are positional at every size, a whole one has no fraction, and of two
equally near decimals the greater is taken. -/
def plainLayout : Layout := ⟨none, false, false, .upward⟩

/-- A double as plain text, with a word for each value that is not finite. -/
def plainFloat (x : Float) : String :=
  if x.isNaN then "NaN"
  else if x.isInf then (if x < 0.0 then "-inf" else "inf")
  else String.ofList (plainLayout.write x)

end Gateway.Decimal
