import Minifier.Logbook
import Minifier.Meter
import Minifier.Settings.Load
import Minifier.Summary

/-!
# Sessions

What a run can see and change: the disk, the log, the meter, what it prints, the settings that it
loads once, the exclusions that it holds from its first scan on, and the clock. A step of a run may
fail, and keeps what it has changed all the same.
-/

set_option autoImplicit false

namespace Minifier

/-- The state of a run. A bar is drawn when it has a width. Exclusions that are held, be they given
or taken from the settings at the first scan, take the place of those of the settings. -/
structure Session where
  disk : Disk
  clock : Stamp
  log : Logbook := {}
  meter : Meter := {}
  barWidth : Option Int := none
  printed : String := ""
  settings : Option Settings := none
  exclusions : Option (List Exclusion) := none

/-- A step of a run. -/
abbrev Job := ExceptT Failure (StateM Session)

namespace Job

/-- Enters a record into the log. -/
def report (record : LogRecord) : Job Unit :=
  modify fun s =>
    let (log, disk) := s.log.enter s.clock record s.disk
    { s with log, disk }

/-- Reports something under the name of a logger. -/
def tell (severity : Severity) (logger message : String) : Job Unit :=
  report ⟨severity, loggerName logger, message⟩

/-- Reports something that the run itself does. -/
def note (severity : Severity) (message : String) : Job Unit :=
  tell severity "orchestrator" message

/-- Prints a text. -/
def print (text : String) : Job Unit :=
  modify fun s => { s with printed := s.printed ++ text }

/-- Enters the records of a computation. -/
def logged {α : Type} (value : Logged α) : Job α := do
  value.records.forM report
  return value.value

/-- Enters the records of a computation that may fail. -/
def loggedTry {ε α : Type} (failure : ε → Failure) (value : ExceptT ε Logged α) : Job α := do
  match ← logged value.run with
  | .ok result => return result
  | .error error => throw (failure error)

/-- The answer of the disk to a question. -/
def ask {α : Type} (question : Disk → Except Failure α) : Job α := do
  match question (← get).disk with
  | .ok answer => return answer
  | .error failure => throw failure

/-- What a step gives or how it fails; the failure does not end the job. -/
def attempt {α : Type} (step : Job α) : Job (Except Failure α) :=
  fun s => (step.run s).map .ok id

/-- Has the log shown, from a threshold on, and added to a file if there is one. -/
def configureLog (verbose : Bool) (file : Option Path) : Job Unit := do
  let s ← get
  let (answer, log, disk) := s.log.configure verbose file s.disk
  set { s with log, disk }
  match answer with
  | .ok () => return ()
  | .error error => throw (.path (.disk error))

/-- The path with its leading tilde replaced. -/
def expandHome (path : Path) : Job Path :=
  ask fun disk => (disk.expandHome path).mapError .path

/-- The path without links. -/
def resolve (path : Path) : Job Path :=
  ask fun disk => (disk.resolve path).mapError .path

/-- Whether a path leads to anything. -/
def isThere (path : Path) : Job Bool :=
  ask fun disk => (disk.exists? path).mapError fun error => .path (.disk error)

/-- Whether a path leads to a directory. -/
def isDirectory (path : Path) : Job Bool :=
  ask fun disk => (disk.isDirectory? path).mapError fun error => .path (.disk error)

/-- Whether a path leads to a regular file. -/
def isFile (path : Path) : Job Bool :=
  ask fun disk => (disk.isFile? path).mapError fun error => .path (.disk error)

/-! ## The meter -/

/-- Starts to count files. -/
def startMeter (total : Nat) : Job Unit :=
  modify fun s => { s with meter := Meter.start total }

/-- Counts a file, and draws the bar if there is one. -/
def advance (label : String) : Job Unit := do
  modify fun s => { s with meter := s.meter.advance }
  let s ← get
  match s.barWidth with
  | some width => print (s.meter.bar width label)
  | none => return ()

/-- Ends the bar if there is one. -/
def finishMeter : Job Unit := do
  let s ← get
  if s.barWidth.isSome then print s.meter.ending

/-! ## Files -/

/-- The text of a file, or `none`, with a report, when it cannot be read. -/
def read (path : Path) : Job (Option Text) := do
  match (← get).disk.readProtected path with
  | .ok bytes => return some (Utf8.decode bytes)
  | .error error =>
    if !error.isFromDisk then throw (.path (.disk error))
    note .warning ("Failed to read " ++ path.toString ++ ": " ++ error.name)
    return none

/-- Writes a file; says, with a report, when it cannot be written. -/
def write (path : Path) (content : Text) : Job Bool := do
  let (answer, disk) := (← get).disk.save path (Utf8.encode content)
  modify fun s => { s with disk }
  match answer with
  | .ok () => return true
  | .error error =>
    if !error.isFromDisk then throw (.path (.disk error))
    note .error ("Failed to write " ++ path.toString ++ ": " ++ error.name)
    return false

end Job

end Minifier
