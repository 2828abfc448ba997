import Gateway.Log.FileConfig
import Gateway.Log.Rolling

/-!
# Setting up a log

For hosts without a log of their own: a rolling log by arguments or by environment
variables, or a plain log by a configuration file. A process has one log for good, the
first that was set up. A later one is refused, but by then it has opened its file and
set the threshold of the process, so a record has to pass both that threshold and the
one of the first log.
-/

namespace Gateway.Log

/-- Where the records of a log go. -/
inductive Appender where
  /-- A rolling log, with the bytes counted so far while its file is open. -/
  | rolling (log : RollingLog) (count : Option Nat)
  | plain (path : Path)
  | nowhere
deriving DecidableEq, Repr

/-- A log that was set up. -/
structure Logger where
  threshold : Level
  appender : Appender
deriving DecidableEq, Repr

/-- The state of logging in a process. -/
structure Journal where
  files : Files
  /-- The environment of the process. -/
  environment : Variables
  /-- The threshold of the process. -/
  threshold : Level
  /-- The first log that was set up. -/
  logger : Option Logger
deriving DecidableEq, Repr

inductive SetupResult where
  | done
  | alreadySet
  | failed
deriving DecidableEq, Repr

def directoryVariable : String := "DOCBRIDGE_LOG_DIR"

def levelVariable : String := "DOCBRIDGE_LOG_LEVEL"

def retentionVariable : String := "DOCBRIDGE_LOG_RETENTION"

/-- The number of rolled files that are kept unless something else is said. -/
def defaultRetention : Nat := 7

namespace Journal

/-- A process without a log. -/
def initial (environment : Variables) : Journal := ⟨.empty, environment, .off, none⟩

/-- Sets the threshold of the process, and the log if there is none yet. -/
def install (threshold : Level) (appender : Appender) (p : Journal) : SetupResult × Journal :=
  match p.logger with
  | none => (.done, { p with threshold, logger := some ⟨threshold, appender⟩ })
  | some _ => (.alreadySet, { p with threshold })

/-- Sets up a rolling log in a directory, by default the working directory. The directory
is made as it was given, and the one of the file once more with the values of variables. -/
def configure (directory level : Option String) (retention : Option Nat) (p : Journal) :
    SetupResult × Journal :=
  let log : RollingLog :=
    ⟨directory.getD "", retention.getD defaultRetention, p.environment⟩
  match p.files.makeDirectories ⟨log.directory⟩ with
  | (false, files) => (.failed, { p with files })
  | (true, files) =>
    match files.makeDirectories log.current.parent with
    | (false, files) => (.failed, { p with files })
    | (true, files) =>
      match files.openAppend log.current with
      | none => (.failed, { p with files })
      | some files =>
        { p with files }.install (Level.ofName level) (.rolling log (some (log.size files)))

/-- Sets up a rolling log by the environment. A retention that is no number of 32 bits
counts as not given. -/
def configureFromEnvironment (p : Journal) : SetupResult × Journal :=
  let value? := fun name => Entries.get? name p.environment
  let retention := (value? retentionVariable).bind fun s =>
    (Decimal.readUnsigned (Decimal.maxOfBits 32) s.toList).toOption
  p.configure (value? directoryVariable) (value? levelVariable) retention

/-- Sets up a log by a configuration file. Where its file cannot be opened the log writes
nowhere. -/
def configureFromFile (path : Path) (p : Journal) : SetupResult × Journal :=
  match (p.files.read? path).bind FileConfig.read? with
  | none => (.failed, p)
  | some ⟨threshold, none⟩ => p.install threshold .nowhere
  | some ⟨threshold, some target⟩ =>
    match p.files.openAppend target with
    | none => p.install threshold .nowhere
    | some files => { p with files }.install threshold (.plain target)

/-- Writes a file, new or in place of its content; tells whether that was possible. -/
def writeFile (path : Path) (content : String) (p : Journal) : Bool × Journal :=
  match p.files.write path content with
  | none => (false, p)
  | some files => (true, { p with files })

/-- The line of a record in a rolling log, behind the time at which it is written. -/
def rollingLine (time : String) (r : Record) : String :=
  time ++ " [" ++ r.level.name ++ "] " ++ r.target ++ " - " ++ r.message ++ "\n"

def plainLine (r : Record) : String :=
  r.level.name ++ " " ++ r.target ++ " " ++ r.message ++ "\n"

def admits (p : Journal) (level : Level) : Bool :=
  p.threshold.admits level &&
    match p.logger with
    | none => false
    | some logger => logger.threshold.admits level

/-- Writes a record at a time, if it is one that is written. -/
def emit (time : String) (r : Record) (p : Journal) : Journal :=
  match p.logger with
  | none => p
  | some logger =>
    if p.admits r.level then
      match logger.appender with
      | .rolling log count =>
        let (count, files) := log.write (rollingLine time r) count p.files
        { p with files, logger := some { logger with appender := .rolling log count } }
      | .plain path => { p with files := p.files.append path (plainLine r) }
      | .nowhere => p
    else p

end Journal

end Gateway.Log
