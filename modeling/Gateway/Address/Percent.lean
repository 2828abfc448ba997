/-!
# Percent encoding

A text inside a URL keeps its unreserved characters and writes every other byte of
its encoding as a percent sign and two capital digits. What is written holds none of
the characters that separate the parts of a URL, and can be read back.
-/

namespace Gateway.Percent

/-- The characters that stand for themselves. -/
def isUnreserved (b : UInt8) : Bool :=
  (65 ≤ b && b ≤ 90) || (97 ≤ b && b ≤ 122) || (48 ≤ b && b ≤ 57)
    || b = 45 || b = 95 || b = 46 || b = 126

/-- The character of a digit below sixteen, in capitals. -/
def digit (n : Nat) : Char :=
  if n < 10 then Char.ofNat (48 + n) else Char.ofNat (55 + n)

/-- How one byte is written. -/
def ofByte (b : UInt8) : List Char :=
  if isUnreserved b then [Char.ofNat b.toNat]
  else ['%', digit (b.toNat / 16), digit (b.toNat % 16)]

def encode (s : String) : String := String.ofList (s.toUTF8.toList.flatMap ofByte)

end Gateway.Percent
