import Gateway.Log.Path

/-!
# Files and directories

A tree of files, one of whose directories is the working directory of the process, as far
as a log needs it: directories are made with those above them, a file is created empty when
it is opened for appending, and files are appended to, moved and removed.

A `Place` is where something is in the tree; a `Path` is a walk that may or may not lead to
a place (`locate`). A walk that fails tells whether something is missing on its way or bars
it, since what moves a file takes the one for nothing to do and the other for a failure.
-/

namespace Gateway.Log

/-- A place in the tree: the names from its root. -/
abbrev Place : Type := List String

/-- The place of the working directory. No walk goes there by name. -/
def workingDirectory : Place := ["."]

/-- Files with their contents, and directories other than the root. -/
structure Files where
  files : List (Place × String)
  directories : List Place
deriving DecidableEq, Repr

inductive Obstacle where
  /-- A name on the way is not there. -/
  | missing
  /-- A name on the way is a file or too long, or the path is unusable. -/
  | barred
deriving DecidableEq, Repr

namespace Files

def empty : Files := ⟨[], [workingDirectory]⟩

def content? (fs : Files) (p : Place) : Option String :=
  (fs.files.find? fun e => e.1 = p).map Prod.snd

def isFile (fs : Files) (p : Place) : Bool := (fs.content? p).isSome

def isDirectory (fs : Files) (p : Place) : Bool := p.isEmpty || fs.directories.contains p

/-- Whether nothing is below a place. -/
def isEmpty (fs : Files) (p : Place) : Bool :=
  (fs.files.map Prod.fst ++ fs.directories).all fun q => q = p || !p.isPrefixOf q

/-! ## Walking -/

/-- The most bytes of a name. -/
def nameLimit : Nat := 255

def step (d : Place) (name : String) : Except Obstacle Place :=
  if name = "." then .ok d
  else if name = ".." then .ok d.dropLast
  else if nameLimit < name.utf8ByteSize then .error .barred
  else .ok (d ++ [name])

def enter (fs : Files) : Place → List String → Except Obstacle Place
  | d, [] => .ok d
  | d, name :: names => do
    let p ← step d name
    if fs.isDirectory p then enter fs p names
    else .error (if fs.isFile p then .barred else .missing)

/-- The place that a path leads to, which need not be there itself. -/
def locate (fs : Files) (p : Path) : Except Obstacle Place :=
  let start := if p.isRooted then [] else workingDirectory
  if !p.isUsable then .error .barred
  else
    match p.names.getLast? with
    | none => .ok start
    | some name => do
      let d ← fs.enter start p.names.dropLast
      step d name

/-- The content of the file that a path leads to. -/
def read? (fs : Files) (p : Path) : Option String :=
  match fs.locate p with
  | .ok q => fs.content? q
  | .error _ => none

/-! ## Directories -/

/-- Makes a directory in one that is there, unless it is there already. -/
def makeDirectory (p : Path) (fs : Files) : Option Files :=
  match fs.locate p with
  | .error _ => none
  | .ok q =>
    if fs.isDirectory q then some fs
    else if fs.isFile q then none
    else some { fs with directories := fs.directories ++ [q] }

/-- Makes directories one after another until one cannot be made; tells whether all were. -/
def makeEach : List Path → Files → Bool × Files
  | [], fs => (true, fs)
  | p :: ps, fs =>
    match fs.makeDirectory p with
    | some fs => makeEach ps fs
    | none => (false, fs)

/-- Makes a directory with those above it. Those that were made stay even if a later one
cannot be. -/
def makeDirectories (p : Path) (fs : Files) : Bool × Files :=
  if p.isUsable then makeEach p.ancestry fs else (false, fs)

/-! ## Files -/

/-- Puts a file, in place of one that is there. -/
def put (p : Place) (content : String) (fs : Files) : Files :=
  { fs with files := (fs.files.filter fun e => e.1 ≠ p) ++ [(p, content)] }

/-- Writes a file, new or in place of its content. -/
def write (p : Path) (content : String) (fs : Files) : Option Files :=
  match fs.locate p with
  | .ok q => if p.endsInSlash || fs.isDirectory q then none else some (fs.put q content)
  | .error _ => none

/-- Opens a file for appending; creates it empty if it is not there. -/
def openAppend (p : Path) (fs : Files) : Option Files :=
  match fs.read? p with
  | some _ => some fs
  | none => fs.write p ""

def append (p : Path) (text : String) (fs : Files) : Files :=
  match fs.read? p with
  | some present => (fs.write p (present ++ text)).getD fs
  | none => fs

def remove (p : Path) (fs : Files) : Files :=
  match fs.locate p with
  | .ok q => { fs with files := fs.files.filter fun e => e.1 ≠ q }
  | .error _ => fs

/-- Puts one place, and what is below it, for another. -/
def rename (p q : Place) (fs : Files) : Files :=
  let renamed := fun r : Place => if p.isPrefixOf r then q ++ r.drop p.length else r
  { files := (fs.files.filter fun e => e.1 ≠ q).map fun e => (renamed e.1, e.2)
    directories := (fs.directories.filter fun r => r ≠ q).map renamed }

/-- Moves a file, or a directory with all that is in it; none if that fails. A file gives
way to a file and an empty directory to a directory. Nothing is done where there is nothing
to move or nowhere to move it to. -/
def move (source target : Path) (fs : Files) : Option Files :=
  match fs.locate source with
  | .error .missing => some fs
  | .error .barred => none
  | .ok p =>
    if !fs.isFile p && !fs.isDirectory p then some fs
    else
      match fs.locate target with
      | .error .missing => some fs
      | .error .barred => none
      | .ok q =>
        if p = q then some fs
        else if fs.isFile p then
          if fs.isDirectory q then none else some (fs.rename p q)
        else if fs.isFile q || !fs.isEmpty q || p.isPrefixOf q then none
        else some (fs.rename p q)

/-- The files below the working directory, by their path in ascending order. -/
def listing (fs : Files) : List (String × String) :=
  let below := fs.files.filter fun e => workingDirectory.isPrefixOf e.1
  (below.map fun e => ("/".intercalate (e.1.drop workingDirectory.length), e.2)).mergeSort
    fun a b => a.1 ≤ b.1

end Files

end Gateway.Log
