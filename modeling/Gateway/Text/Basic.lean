import Gateway.Text.Visible

/-!
# Texts

Blank characters are the 25 code points with the White_Space property. A port
written as text may carry any of them at either end, so trimming is by this set
and not by the ASCII one.

A message or a debugging view shows a text between double quotes, with the quote and the
backslash escaped, the common controls by letter, and every other character that cannot
be seen by its number in braces. Of compound values a debugging view shows a record by its
name and its fields in braces, a list in brackets, and an optional value by a word for each
case.
-/

namespace Gateway.Text

/-! ## Blanks -/

/-- The code points of the White_Space property, as ranges with both ends included. -/
def blankRanges : List (Nat × Nat) := [
  (0x9, 0xd), (0x20, 0x20), (0x85, 0x85), (0xa0, 0xa0), (0x1680, 0x1680), (0x2000, 0x200a),
  (0x2028, 0x2029), (0x202f, 0x202f), (0x205f, 0x205f), (0x3000, 0x3000)]

/-- A character is blank when it has the White_Space property. -/
def isBlank (c : Char) : Bool :=
  blankRanges.any fun r => r.1 ≤ c.toNat && c.toNat ≤ r.2

/-- The text without the blanks at its front. -/
def trimFront (cs : List Char) : List Char := cs.dropWhile isBlank

/-- The text without the blanks at its end. -/
def trimBack (cs : List Char) : List Char := (cs.reverse.dropWhile isBlank).reverse

/-- The text without the blanks at both ends; blanks inside stay. -/
def trim (cs : List Char) : List Char := trimBack (trimFront cs)

/-! ## Quotes -/

def hexDigit (n : Nat) : Char :=
  if n < 10 then Char.ofNat (48 + n) else Char.ofNat (87 + n)

/-- A number in base sixteen, lower case, without leading zeros. -/
def hexDigits (n : Nat) : List Char :=
  if _h : n < 16 then [hexDigit n] else hexDigits (n / 16) ++ [hexDigit (n % 16)]
termination_by n
decreasing_by omega

def quotedChar (c : Char) : List Char :=
  if c = '"' then ['\\', '"']
  else if c = '\\' then ['\\', '\\']
  else if c = '\n' then ['\\', 'n']
  else if c = '\r' then ['\\', 'r']
  else if c = '\t' then ['\\', 't']
  else if c.toNat = 0 then ['\\', '0']
  else if isVisible c then [c]
  else ['\\', 'u', '{'] ++ hexDigits c.toNat ++ ['}']

/-- A text between quotes, every character in its quoted form. -/
def quoted (s : String) : String :=
  String.ofList ('"' :: (s.toList.flatMap quotedChar ++ ['"']))

/-! ## Debugging views -/

def debugOption {α : Type} (f : α → String) : Option α → String
  | none => "None"
  | some a => "Some(" ++ f a ++ ")"

def debugList {α : Type} (f : α → String) (as : List α) : String :=
  "[" ++ ", ".intercalate (as.map f) ++ "]"

/-- A record by its name and the debugging views of its fields. -/
def debugRecord (name : String) (fields : List (String × String)) : String :=
  name ++ " \x7b " ++ ", ".intercalate (fields.map fun f => f.1 ++ ": " ++ f.2) ++ " \x7d"

end Gateway.Text
