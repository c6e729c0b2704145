import Minifier.Decimal.Integer
import Minifier.Logbook

/-!
# Loggers

Loggers are asked for by names below that of the main one. A logger stands below the nearest known
one that its name leads to, or else below the root. To find it, the name is cut at its dots from the
last one on, but after a cut to no avail not at the dot right before it: so the logger that is asked
for as `.b` stands below the root and not below the main logger.

A logger passes the records that it accepts to its own sinks and to those of the loggers above it,
up to one that keeps them. It accepts records from the nearest rank on that is set on the way up,
and goes by what it once said of a rank until the next time that a rank is set anywhere. Configuring
sets the rank of the main logger, has it keep its records, and gives it new sinks.

Main definitions: `Loggers.elders`, `Loggers.accepts`, `Logging.configure`, `Logging.handle`.
-/

set_option autoImplicit false

namespace Minifier

/-! ## Records -/

/-- The names of the common ranks. -/
def rankNames : List (Int × String) :=
  [(50, "CRITICAL"), (40, "ERROR"), (30, "WARNING"), (20, "INFO"), (10, "DEBUG"), (0, "NOTSET")]

/-- The name of a rank. -/
def rankName (rank : Int) : String :=
  (rankNames.lookup rank).getD ("Level " ++ toString rank)

/-- The importance of a record as a number, which is short enough to be written. -/
structure Level where
  rank : Int
  short : rank.natAbs < Integer.numeralLimit
  deriving DecidableEq, Repr

/-- The level of a severity. -/
def Severity.level (severity : Severity) : Level where
  rank := severity.rank
  short := by cases severity <;> decide +kernel

/-- A moment to the thousandth of a second. -/
structure Instant where
  stamp : Stamp
  thousandths : Fin 1000
  deriving DecidableEq, Repr

/-- The text of a moment. -/
def Instant.text (moment : Instant) : String :=
  moment.stamp.text ++ "," ++ String.ofList (paddedDigits 3 moment.thousandths)

/-- A record, with the full name of the logger that it was given to. -/
structure Notice where
  level : Level
  logger : String
  message : String
  moment : Instant
  deriving DecidableEq, Repr

namespace Notice

/-- The line that shows a record. -/
def shownLine (notice : Notice) : String :=
  Logbook.consoleLine (rankName notice.level.rank) notice.message

/-- The line that a record makes in a file. -/
def fileLine (notice : Notice) : String :=
  Logbook.datedLine notice.moment.text (rankName notice.level.rank) notice.logger notice.message

/-- The line that shows a record that no sink takes. -/
def bareLine (notice : Notice) : String :=
  notice.message ++ "\n"

end Notice

/-! ## The tree of loggers -/

/-- Where a sink writes to. -/
inductive Target where
  | console
  | file (path : Path)
  deriving DecidableEq, Repr

/-- A place that records from a rank on are written to. -/
structure Sink where
  target : Target
  least : Int
  deriving DecidableEq, Repr

/-- A logger: its rank, which is 0 as long as none is set, whether it passes records on to the
loggers above it, its sinks, and what it remembers to have said of ranks. -/
structure Logger where
  rank : Int := 0
  passesOn : Bool := true
  sinks : List Sink := []
  said : Int → Option Bool := fun _ => none

/-- The loggers that have been asked for, by their full names, and whether a warning that no sink
takes is shown all the same. -/
structure Loggers where
  known : String → Option Logger := fun _ => none
  lastResort : Bool := true

/-- The rank of the root, which has no sinks. -/
def rootRank : Int :=
  Severity.warning.rank

namespace Loggers

/-- The logger with a full name. -/
def logger (loggers : Loggers) (name : String) : Logger :=
  (loggers.known name).getD {}

/-- Has a logger with a full name be a given one. -/
def set (loggers : Loggers) (name : String) (logger : Logger) : Loggers :=
  { loggers with known := fun other => if other = name then some logger else loggers.known other }

/-- Has the logger with a full name be there. -/
def ask (loggers : Loggers) (name : String) : Loggers :=
  loggers.set name (loggers.logger name)

/-- Has every logger forget what it has said. -/
def forget (loggers : Loggers) : Loggers :=
  { loggers with
    known := fun name => (loggers.known name).map fun logger =>
      { logger with said := fun _ => none } }

/-- The known loggers above one, nearest first, by the letters of its name from the last one on. -/
def elders (loggers : Loggers) : List Char → List String
  | [] => []
  | '.' :: c :: rest =>
    let name := String.ofList (c :: rest).reverse
    if (loggers.known name).isSome then name :: loggers.elders (c :: rest) else loggers.elders rest
  | _ :: rest => loggers.elders rest

/-- A logger and the known ones above it. -/
def lineage (loggers : Loggers) (name : String) : List String :=
  name :: loggers.elders name.toList.reverse

/-- The first rank that is set among loggers, or else that of the root. -/
def rankAlong (loggers : Loggers) : List String → Int
  | [] => rootRank
  | name :: above =>
    let rank := (loggers.logger name).rank
    if rank = 0 then loggers.rankAlong above else rank

/-- The sinks of loggers, up to the first one that keeps its records. -/
def sinksAlong (loggers : Loggers) : List String → List Sink
  | [] => []
  | name :: above =>
    let logger := loggers.logger name
    logger.sinks ++ if logger.passesOn then loggers.sinksAlong above else []

/-- Whether a logger accepts records of a rank. -/
def accepts (loggers : Loggers) (name : String) (rank : Int) : Bool :=
  match (loggers.logger name).said rank with
  | some answer => answer
  | none => 0 < rank && loggers.rankAlong (loggers.lineage name) ≤ rank

/-- Has a logger remember what it says of a rank. -/
def remember (loggers : Loggers) (name : String) (rank : Int) : Loggers :=
  let logger := loggers.logger name
  let answer := loggers.accepts name rank
  loggers.set name
    { logger with said := fun other => if other = rank then some answer else logger.said other }

/-- Sets the rank of a logger. -/
def setRank (loggers : Loggers) (name : String) (rank : Int) : Loggers :=
  (loggers.set name { loggers.logger name with rank }).forget

/-- Gives a logger one more sink, which writes from the rank of the logger on. -/
def attach (loggers : Loggers) (name : String) (target : Target) : Loggers :=
  let logger := loggers.logger name
  loggers.set name { logger with sinks := logger.sinks ++ [⟨target, logger.rank⟩] }

/-- Has a logger keep its records, and takes its sinks away. -/
def isolate (loggers : Loggers) (name : String) : Loggers :=
  loggers.set name { loggers.logger name with passesOn := false, sinks := [] }

end Loggers

/-! ## What is written -/

/-- The loggers, the disk, and what has been shown. -/
structure Logging where
  disk : Disk
  loggers : Loggers := {}
  shown : String := ""

namespace Logging

/-- Writes a record to a sink, if it reaches its rank. -/
def write (s : Logging) (notice : Notice) (sink : Sink) : Logging :=
  if notice.level.rank < sink.least then s
  else
    match sink.target with
    | .console => { s with shown := s.shown ++ notice.shownLine }
    | .file path => { s with disk := Logbook.addLine path notice.fileLine s.disk }

/-- Writes a record to all sinks that its logger leads to. Where it leads to none, warnings can
still be shown. -/
def dispatch (s : Logging) (notice : Notice) : Logging :=
  match s.loggers.sinksAlong (s.loggers.lineage notice.logger) with
  | [] =>
    if s.loggers.lastResort ∧ rootRank ≤ notice.level.rank then
      { s with shown := s.shown ++ notice.bareLine }
    else s
  | sinks => sinks.foldl (fun s sink => s.write notice sink) s

/-- Gives a record to its logger. -/
def log (s : Logging) (notice : Notice) : Logging :=
  let loggers := s.loggers.ask notice.logger
  let rank := notice.level.rank
  let told := { s with loggers := loggers.remember notice.logger rank }
  if loggers.accepts notice.logger rank then told.dispatch notice else told

/-- The rank from which on records are written. -/
def threshold (verbose : Bool) : Int :=
  if verbose then Severity.debug.rank else Severity.info.rank

/-- Configures the main logger. Records are shown, and added to a file if there is one. If the file
cannot be opened, they are shown all the same. -/
def configure (s : Logging) (verbose : Bool) (file : Option Path) :
    Logging × Except DiskError Unit :=
  let ranked := (s.loggers.ask mainLogger).setRank mainLogger (threshold verbose)
  let shown := { s with loggers := (ranked.isolate mainLogger).attach mainLogger .console }
  match file with
  | none => (shown, .ok ())
  | some path =>
    match Logbook.openFile path s.disk with
    | (.ok file, disk) =>
      ({ shown with disk, loggers := shown.loggers.attach mainLogger (.file file) }, .ok ())
    | (.error error, disk) => ({ shown with disk }, .error error)

/-- What the loggers can be told to do. Loggers are meant by their names below the main one. -/
inductive Event where
  | ask (name : String)
  | configure (verbose : Bool) (file : Option Path)
  | log (name : String) (level : Level) (message : String) (moment : Instant)
  deriving DecidableEq, Repr

/-- What is done about an event, and whether it could be done. -/
def handle (s : Logging) : Event → Logging × Except DiskError Unit
  | .ask name => ({ s with loggers := s.loggers.ask (loggerName name) }, .ok ())
  | .configure verbose file => s.configure verbose file
  | .log name level message moment => (s.log ⟨level, loggerName name, message, moment⟩, .ok ())

/-- What is done about events one after another, up to the first that fails. -/
def handleAll (s : Logging) : List Event → Logging × Except DiskError Unit
  | [] => (s, .ok ())
  | event :: events =>
    match s.handle event with
    | (after, .ok ()) => after.handleAll events
    | (after, .error error) => (after, .error error)

end Logging

end Minifier
