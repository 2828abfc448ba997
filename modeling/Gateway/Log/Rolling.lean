import Gateway.Log.Files
import Gateway.Log.Variables

/-!
# A log file that rolls

A log is one file that is appended to. When the bytes counted since it was opened, with
those that it had then, exceed its size it rolls: the files kept from earlier move up by
one number, the file itself becomes number zero, and the next write starts a new one. At
most so many are kept as the retention says; with a retention of zero the file is deleted.

The path of a rolled file is made from a pattern by putting its number for each pair of
braces, also in the names of the directories, and only then the values of variables. A
roll that fails midway leaves what it has done.
-/

namespace Gateway.Log

/-- The size in bytes above which a log file rolls. -/
def rollSize : Nat := 10 * 1024 * 1024

structure RollingLog where
  /-- The directory as it was given. -/
  directory : String
  /-- How many rolled files are kept. -/
  retention : Nat
  environment : Variables
deriving DecidableEq, Repr

namespace RollingLog

/-- What stands for the number in the pattern of the rolled files. -/
def numberMark : String := "\x7b\x7d"

def current (l : RollingLog) : Path :=
  ⟨expand l.environment (Path.join l.directory "docbridge.log").text⟩

/-- The rolled file of a number; zero is the latest. -/
def rolled (l : RollingLog) (i : Nat) : Path :=
  let pattern := (Path.join l.directory ("docbridge." ++ numberMark ++ ".log")).text
  ⟨expand l.environment (replaceAll numberMark (Decimal.ofNat i) pattern)⟩

/-- Whether rolled files are in directories of their own. -/
def isSpread (l : RollingLog) : Bool := 1 < (l.directory.splitOn numberMark).length

def number? (name : String) : Option Nat :=
  let i := Decimal.ofDigits (name.toList.filter Decimal.isDigit)
  if name = "docbridge." ++ Decimal.ofNat i ++ ".log" then some i else none

/-- The numbers of the files that may have to move, the greatest first. -/
def numbers (l : RollingLog) (fs : Files) : List Nat :=
  let last := l.retention - 1
  if l.isSpread then (List.range last).reverse
  else
    let places := fs.files.map Prod.fst ++ fs.directories
    let found := places.filterMap fun p => p.getLast?.bind number?
    (found.filter (· < last)).mergeSort fun a b => b ≤ a

/-- Moves a file to a path whose directory is made first; tells whether that was
possible. -/
def moveInto (source target : Path) (fs : Files) : Bool × Files :=
  match fs.makeDirectories target.parent with
  | (false, fs) => (false, fs)
  | (true, fs) =>
    match fs.move source target with
    | some fs => (true, fs)
    | none => (false, fs)

/-- Moves rolled files up by one number until one cannot be moved; tells whether all
were. -/
def shift (l : RollingLog) : List Nat → Files → Bool × Files
  | [], fs => (true, fs)
  | i :: is, fs =>
    match moveInto (l.rolled i) (l.rolled (i + 1)) fs with
    | (true, fs) => shift l is fs
    | (false, fs) => (false, fs)

def roll (l : RollingLog) (fs : Files) : Files :=
  if l.retention = 0 then fs.remove l.current
  else
    match fs.makeDirectories (l.rolled 0).parent with
    | (false, fs) => fs
    | (true, fs) =>
      match l.shift (l.numbers fs) fs with
      | (false, fs) => fs
      | (true, fs) => (moveInto l.current (l.rolled 0) fs).2

def size (l : RollingLog) (fs : Files) : Nat := ((fs.read? l.current).getD "").utf8ByteSize

/-- Writes a text, with the bytes counted so far if the file is open; gives the count
unless the file has rolled. -/
def write (l : RollingLog) (text : String) (count : Option Nat) (fs : Files) :
    Option Nat × Files :=
  let opened := match count with
    | some n => some (n, fs)
    | none => (fs.openAppend l.current).map fun fs => (l.size fs, fs)
  match opened with
  | none => (none, fs)
  | some (n, fs) =>
    let n := n + text.utf8ByteSize
    let fs := fs.append l.current text
    if rollSize < n then (none, l.roll fs) else (some n, fs)

end RollingLog

end Gateway.Log
