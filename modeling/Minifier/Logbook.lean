import Minifier.Disk.Access
import Minifier.Log
import Minifier.Stamp

/-!
# Where records go

A logbook keeps every record. Once it is configured, the records from a threshold on are also shown,
and added to a file if there is one; a later configuration takes the place of an earlier one. Main
definitions: `Logbook.configure`, `Logbook.enter`.
-/

set_option autoImplicit false

namespace Minifier

/-- All records, latest first, the threshold from which on they are shown, the file that they are
added to, and what has been shown. -/
structure Logbook where
  records : List LogRecord := []
  threshold : Option Severity := none
  file : Option Path := none
  shown : String := ""
  deriving DecidableEq, Repr

namespace Logbook

/-- The line that shows a message of a level. -/
def consoleLine (level message : String) : String :=
  "[" ++ mainLogger ++ "] " ++ level ++ " " ++ message ++ "\n"

/-- The line that a message of a level makes in a file. -/
def datedLine (time level logger message : String) : String :=
  time ++ " " ++ level ++ " " ++ logger ++ ": " ++ message ++ "\n"

/-- The line that shows a record. -/
def shownLine (record : LogRecord) : String :=
  consoleLine record.severity.name record.message

/-- The line that a record makes in a file. -/
def fileLine (clock : Stamp) (record : LogRecord) : String :=
  datedLine (clock.text ++ ",000") record.severity.name record.logger record.message

/-- Whether a record reaches the threshold. -/
def accepts (book : Logbook) (record : LogRecord) : Bool :=
  book.threshold.any fun severity => severity.rank ≤ record.severity.rank

/-- A disk with a line added to a file. -/
def addLine (file : Path) (line : String) (disk : Disk) : Disk :=
  match disk.append file (Utf8.encode (Text.ofString line)) with
  | .ok written => written
  | .error _ => disk

/-- A disk with a record added to the file of a logbook. -/
def keep (book : Logbook) (clock : Stamp) (record : LogRecord) (disk : Disk) : Disk :=
  match book.file with
  | none => disk
  | some file => addLine file (fileLine clock record) disk

/-- Enters a record, and sends it on if it reaches the threshold. -/
def enter (book : Logbook) (clock : Stamp) (record : LogRecord) (disk : Disk) : Logbook × Disk :=
  let entered := { book with records := record :: book.records }
  if book.accepts record then
    ({ entered with shown := book.shown ++ shownLine record }, book.keep clock record disk)
  else (entered, disk)

/-- Opens the file of a logbook for adding, after the directories above it. -/
def openFile (file : Path) (disk : Disk) : Except DiskError Path × Disk :=
  match disk.ensureDirectory file.parent with
  | (.error error, after) => (.error error, after)
  | (.ok (), after) =>
    let file := after.absolutePath file
    match after.append file [] with
    | .ok opened => (.ok file, opened)
    | .error error => (.error error, after)

/-- Configures a logbook. Records are shown from a threshold on; those of the lowest importance only
if that is asked for. If the file cannot be opened, records are shown all the same. -/
def configure (book : Logbook) (verbose : Bool) (file : Option Path) (disk : Disk) :
    Except DiskError Unit × Logbook × Disk :=
  let fresh := { book with threshold := some (if verbose then .debug else .info), file := none }
  match file with
  | none => (.ok (), fresh, disk)
  | some path =>
    match openFile path disk with
    | (.ok file, after) => (.ok (), { fresh with file := some file }, after)
    | (.error error, after) => (.error error, fresh, after)

end Logbook

end Minifier
