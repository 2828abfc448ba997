/-!
# Bytes in base sixteen

Two digits a byte, most significant first. Writing is in lower case; reading takes
either case and nothing else.
-/

namespace Gateway.Hex

/-- The character of a digit below sixteen, in lower case. -/
def digit (n : Nat) : Char :=
  if n < 10 then Char.ofNat (48 + n) else Char.ofNat (87 + n)

def value? (c : Char) : Option Nat :=
  let n := c.toNat
  if 48 ≤ n ∧ n ≤ 57 then some (n - 48)
  else if 97 ≤ n ∧ n ≤ 102 then some (n - 87)
  else if 65 ≤ n ∧ n ≤ 70 then some (n - 55)
  else none

def ofByte (b : UInt8) : List Char := [digit (b.toNat / 16), digit (b.toNat % 16)]

def encode (bs : List UInt8) : String := String.ofList (bs.flatMap ofByte)

/-- The bytes of a text of digits; an odd number of them is refused. -/
def decode : List Char → Option (List UInt8)
  | [] => some []
  | [_] => none
  | a :: b :: rest => do
    let high ← value? a
    let low ← value? b
    let tail ← decode rest
    pure (UInt8.ofNat (16 * high + low) :: tail)

/-- The value of a run of digits of any length, if all are digits. -/
def toNat? (cs : List Char) : Option Nat :=
  cs.foldl (fun acc c => do pure (16 * (← acc) + (← value? c))) (some 0)

end Gateway.Hex
