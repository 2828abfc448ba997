/-!
# Whole numbers in decimal digits

Writing is canonical: no sign for a natural number, no leading zero. Reading is
wider: a sign and any number of leading zeros are allowed, and a number past the
bound of its type is refused at the digit that takes it there. The digits are
consumed from the left, so of two faults in one text the one further left is
reported.
-/

namespace Gateway.Decimal

/-! ## Digits -/

def digitChar (n : Nat) : Char := Char.ofNat (48 + n)

/-- Exactly the ten ASCII digits. -/
def isDigit (c : Char) : Bool := 48 ≤ c.toNat && c.toNat ≤ 57

def digitValue (c : Char) : Nat := c.toNat - 48

/-- A natural number in decimal, without leading zeros. -/
def digits (n : Nat) : List Char :=
  if _h : n < 10 then [digitChar n] else digits (n / 10) ++ [digitChar (n % 10)]
termination_by n
decreasing_by omega

def padded (width n : Nat) : List Char :=
  List.replicate (width - (digits n).length) '0' ++ digits n

/-- The value of a run of digits, most significant first. -/
def ofDigits (cs : List Char) : Nat := cs.foldl (fun n c => n * 10 + digitValue c) 0

/-- An integer in decimal, with a minus sign below zero. -/
def signedDigits (n : Int) : List Char :=
  if n < 0 then '-' :: digits n.natAbs else digits n.natAbs

def ofNat (n : Nat) : String := String.ofList (digits n)

def ofInt (n : Int) : String := String.ofList (signedDigits n)

/-! ## Reading -/

def maxOfBits (bits : Nat) : Nat := Nat.pow 2 bits - 1

/-- Why a text is not a whole number of the wanted range. -/
inductive IntegerFault where
  | empty
  | invalidDigit
  | tooLarge
  | tooSmall
deriving DecidableEq, Repr

def IntegerFault.message : IntegerFault → String
  | .empty => "cannot parse integer from empty string"
  | .invalidDigit => "invalid digit found in string"
  | .tooLarge => "number too large to fit in target type"
  | .tooSmall => "number too small to fit in target type"

/-- Takes digits onto a value as long as it stays within `bound`; the fault for
leaving it is the caller's. -/
def takeDigits (bound : Nat) (excess : IntegerFault) : Nat → List Char → Except IntegerFault Nat
  | acc, [] => .ok acc
  | acc, c :: cs =>
    if isDigit c then
      let next := acc * 10 + digitValue c
      if next ≤ bound then takeDigits bound excess next cs else .error excess
    else .error .invalidDigit

/-- A non-empty run of digits of a value of at most `bound`. -/
def takeRun (bound : Nat) (excess : IntegerFault) : List Char → Except IntegerFault Nat
  | [] => .error .invalidDigit
  | c :: cs => takeDigits bound excess 0 (c :: cs)

/-- An unsigned number of at most `bound`; one plus sign may lead. -/
def readUnsigned (bound : Nat) : List Char → Except IntegerFault Nat
  | [] => .error .empty
  | '+' :: cs => takeRun bound .tooLarge cs
  | cs => takeRun bound .tooLarge cs

/-- A signed number from `-(bound + 1)` to `bound`; one sign may lead. -/
def readSigned (bound : Nat) : List Char → Except IntegerFault Int
  | [] => .error .empty
  | '+' :: cs => (takeRun bound .tooLarge cs).map Int.ofNat
  | '-' :: cs => (takeRun (bound + 1) .tooSmall cs).map fun n => -(n : Int)
  | cs => (takeRun bound .tooLarge cs).map Int.ofNat

end Gateway.Decimal
