import Gateway.Log.Level
import Gateway.Log.Path

/-!
# Configuration files of a log

A log can be set up by a file. An empty file asks for a log that writes nowhere. Any other
is a fixed head, which names the one file to write to, and behind it the name of the
threshold as a scalar: bare or between quotes, and with nothing behind it but blanks, line
breaks and comments.
-/

namespace Gateway.Log

structure FileConfig where
  threshold : Level
  /-- The file to write to, if there is one. -/
  target : Option Path
deriving DecidableEq, Repr

namespace FileConfig

def plainTarget : Path := ⟨"yaml.log"⟩

def head : String :=
  "appenders:\n  file:\n    kind: file\n    path: " ++ plainTarget.text
    ++ "\n    encoder:\n      pattern: \"\x7bl\x7d \x7bt\x7d \x7bm\x7d\x7bn\x7d\"\n"
    ++ "root:\n  appenders: [file]\n  level: "

/-- The text of a configuration file with the scalar given. -/
def write (scalar : String) : String := head ++ scalar ++ "\n"

def isBlank (c : Char) : Bool := c = ' ' || c = '\t' || c = '\r'

def isRemark (line : List Char) : Bool :=
  match line.dropWhile isBlank with
  | [] => true
  | c :: _ => c = '#'

/-- A line without the comment behind a blank. -/
def beforeRemark : List Char → List Char
  | [] => []
  | c :: cs => if isBlank c && cs.head? = some '#' then [] else c :: beforeRemark cs

def lineScalar? (line : List Char) : Option (List Char) :=
  let line := line.dropWhile isBlank
  match line with
  | [] => none
  | mark :: rest =>
    if mark = '\'' || mark = '"' then
      match rest.dropWhile (· ≠ mark) with
      | [] => none
      | _ :: behind => if isRemark behind then some (rest.takeWhile (· ≠ mark)) else none
    else some ((beforeRemark line).reverse.dropWhile isBlank).reverse

def threshold? (scalar : String) : Option Level :=
  match scalar.splitOn "\n" with
  | [] => none
  | line :: others =>
    if others.all fun l => isRemark l.toList then
      (lineScalar? line.toList).bind fun name => Level.named? (String.ofList name)
    else none

def read? (content : String) : Option FileConfig :=
  if content = "" then some ⟨.debug, none⟩
  else
    match content.splitOn head with
    | ["", scalar] => (threshold? scalar).map fun level => ⟨level, some plainTarget⟩
    | _ => none

end FileConfig

end Gateway.Log
