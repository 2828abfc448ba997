import Gateway.Json.Basic
import Gateway.Decimal.Shortest
import Gateway.Text.Basic

/-!
# Writing JSON

Compact text: no blanks, members in their order. A string escapes the quote, the
backslash and the controls below U+0020, and nothing else. A double is written in
its shortest form, positional from 0.00001 up to below ten to the sixteenth.
-/

namespace Gateway.Json

/-- Doubles are positional for exponents from -5 to 15, a whole one keeps `.0`, a
positive exponent its sign, and of two equally near decimals the even one is taken. -/
def doubleLayout : Decimal.Layout := ⟨some (-5, 15), true, true, .toEven⟩

/-- A number; what is not finite has no form of its own and becomes null. -/
def Number.print : Number → List Char
  | .natural n => Decimal.digits n.toNat
  | .negative n => Decimal.signedDigits n.toInt
  | .double x => if x.isFinite then doubleLayout.write x else ['n', 'u', 'l', 'l']

def escapeChar (c : Char) : List Char :=
  if c = '"' then ['\\', '"']
  else if c = '\\' then ['\\', '\\']
  else if c = '\n' then ['\\', 'n']
  else if c = '\t' then ['\\', 't']
  else if c = '\r' then ['\\', 'r']
  else if c = '\x08' then ['\\', 'b']
  else if c = '\x0c' then ['\\', 'f']
  else if c.toNat < 32 then
    ['\\', 'u', '0', '0', Text.hexDigit (c.toNat / 16), Text.hexDigit (c.toNat % 16)]
  else [c]

def printString (s : String) : List Char := '"' :: (s.toList.flatMap escapeChar ++ ['"'])

mutual

def print : Json → List Char
  | .null => ['n', 'u', 'l', 'l']
  | .bool true => ['t', 'r', 'u', 'e']
  | .bool false => ['f', 'a', 'l', 's', 'e']
  | .number n => n.print
  | .string s => printString s
  | .array [] => ['[', ']']
  | .array (v :: vs) => '[' :: (print v ++ (printItems vs ++ [']']))
  | .object [] => ['{', '}']
  | .object ((k, v) :: ms) =>
    '{' :: (printString k ++ ':' :: (print v ++ (printMembers ms ++ ['}'])))

/-- The items of an array after the first, each behind a comma. -/
def printItems : List Json → List Char
  | [] => []
  | v :: vs => ',' :: (print v ++ printItems vs)

/-- The members of an object after the first, each behind a comma. -/
def printMembers : List (String × Json) → List Char
  | [] => []
  | (k, v) :: ms => ',' :: (printString k ++ ':' :: (print v ++ printMembers ms))

end

def render (v : Json) : String := String.ofList v.print

end Gateway.Json
