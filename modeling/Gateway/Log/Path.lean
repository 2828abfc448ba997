/-!
# Paths

A path is a text with slashes. It is walked name by name, and what its names lead to is
known only to the directories on the way: two dots go back from wherever the walk has come
to, so `a/../b` needs a directory `a`. A path without its last name is its parent; for that
single dots count as nothing, except one at the front.
-/

namespace Gateway.Log

structure Path where
  text : String
deriving DecidableEq, Repr

namespace Path

/-- The most bytes of a path. -/
def lengthLimit : Nat := 4095

/-- Whether a path can be walked at all. -/
def isUsable (p : Path) : Bool :=
  p.text.utf8ByteSize ≤ lengthLimit && !p.text.toList.contains '\x00'

/-- Whether a path starts at the root and not at the working directory. -/
def isRooted (p : Path) : Bool := p.text.startsWith "/"

def endsInSlash (p : Path) : Bool := p.text.endsWith "/"

def names (p : Path) : List String := (p.text.splitOn "/").filter (· ≠ "")

def ofNames (rooted : Bool) (names : List String) : Path :=
  ⟨(if rooted then "/" else "") ++ "/".intercalate names⟩

def join (directory name : String) : Path :=
  if directory = "" || directory.endsWith "/" then ⟨directory ++ name⟩
  else ⟨directory ++ "/" ++ name⟩

/-- The names without the dots that go nowhere. -/
def plainNames (p : Path) : List String :=
  let kept := p.names.filter (· ≠ ".")
  if !p.isRooted && p.names.head? = some "." then "." :: kept else kept

/-- The path without its last name. -/
def parent (p : Path) : Path := ofNames p.isRooted p.plainNames.dropLast

/-- The path and those of which it is a continuation, the shortest first. -/
def ancestry (p : Path) : List Path :=
  let above := p.plainNames.dropLast
  (List.range above.length).map (fun i => ofNames p.isRooted (above.take (i + 1))) ++ [p]

end Path

end Gateway.Log
