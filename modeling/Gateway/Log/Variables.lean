import Gateway.Decimal.Natural
import Gateway.Entries

/-!
# Variables in paths

A path may refer to a variable of the environment by its name in braces behind `$ENV`. The
references are those of the path as it was given; each puts the value of its variable in
all places where the text as it has become by then says so. A reference to a variable that
is not set stays as it is.
-/

namespace Gateway.Log

abbrev Variables : Type := List (String × String)

def replaceAll (pattern replacement s : String) : String :=
  replacement.intercalate (s.splitOn pattern)

/-- What opens a reference. -/
def referenceMark : String := "$ENV\x7b"

def reference (name : String) : String := referenceMark ++ name ++ "\x7d"

/-- The characters that the name of a variable begins with. -/
def opensName (c : Char) : Bool :=
  Decimal.isDigit c || ('a' ≤ c && c ≤ 'z') || ('A' ≤ c && c ≤ 'Z') || c = '_' || 127 < c.toNat

/-- The variable of the reference that a text begins with. -/
def leadingReference? (cs : List Char) : Option String :=
  let mark := referenceMark.toList
  let body := cs.drop mark.length
  let name := body.takeWhile fun c => opensName c || c = '.'
  if mark.isPrefixOf cs && (name.head?.any opensName) && (body.drop name.length).head? = some '}'
  then some (String.ofList name)
  else none

/-- The variables that a text refers to, from left to right. -/
def references : List Char → List String
  | [] => []
  | c :: cs => (leadingReference? (c :: cs)).toList ++ references cs

/-- A text with the values of the variables that it refers to. -/
def expand (vs : Variables) (s : String) : String :=
  (references s.toList).foldl (fun text name =>
    match Entries.get? name vs with
    | some value => replaceAll (reference name) value text
    | none => text) s

end Gateway.Log
