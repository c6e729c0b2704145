import Minifier.Decimal.Integer
import Minifier.Meter

/-!
# Reporters

A reporter is told when a run begins, when a file is done and when the run is over. It keeps a
meter, and one with a width draws the meter's bar on its stream after each file. A bar cannot always
be drawn: its width has to be a floating-point number, its cells have to be countable by an index,
and its numbers must not be too long to be written (`Meter.draw?`). Main definitions:
`Reporter.handle`, `Reporter.handleAll`.
-/

set_option autoImplicit false

namespace Minifier

namespace Meter

/-- Why a bar cannot be drawn. -/
inductive Fault where
  | shareTooLarge
  | widthTooLarge
  | endlessCells
  | cellsNotANumber
  | tooManyCells
  | numeralTooLong
  deriving DecidableEq, Repr

/-- The wording of a fault. -/
def Fault.message : Fault → String
  | .shareTooLarge => "integer division result too large for a float"
  | .widthTooLarge => "int too large to convert to float"
  | .endlessCells => "cannot convert float infinity to integer"
  | .cellsNotANumber => "cannot convert float NaN to integer"
  | .tooManyCells => "cannot fit 'int' into an index-sized integer"
  | .numeralTooLong =>
    "Exceeds the limit (4300 digits) for integer string conversion; " ++
      "use sys.set_int_max_str_digits() to increase the limit"

/-- The number of full cells of a bar, if it is a number. -/
def fullCells? (meter : Meter) (width : Int) : Except Fault Int :=
  let share := Binary64.ofRatio (meter.total < 0) meter.processed meter.total.natAbs
  let cells := (meter.percentage.mul (Binary64.ofInt width)).divNat 100
  if share.isInfinite then .error .shareTooLarge
  else if (Binary64.ofInt width).isInfinite then .error .widthTooLarge
  else if cells.isInfinite then .error .endlessCells
  else if cells = .notANumber then .error .cellsNotANumber
  else .ok (meter.filledCells width)

/-- Numbers of cells, of either sign, are below this one. -/
def cellLimit : Nat :=
  Nat.pow 2 63

/-- A number of equal cells, if an index can count them. -/
def cells? (c : Char) (count : Int) : Except Fault String :=
  if -cellLimit ≤ count ∧ count < cellLimit then .ok (cells c count) else .error .tooManyCells

/-- The decimal digits of a number, unless they are too many. -/
def numeral? (n : Int) : Except Fault String :=
  if n.natAbs < Integer.numeralLimit then .ok (toString n) else .error .numeralTooLong

/-- What is drawn after a file, if it can be drawn. -/
def draw? (meter : Meter) (width : Int) (label : String) : Except Fault String :=
  if meter.total = 0 then .ok ""
  else do
    let full ← meter.fullCells? width
    let front ← cells? '█' full
    let back ← cells? '░' (width - full)
    let processed ← numeral? meter.processed
    let total ← numeral? meter.total
    return "\rProgress: [" ++ front ++ back ++ "] " ++
      String.ofList (meter.percentage.fixed 1) ++ "% (" ++ processed ++ "/" ++ total ++ ") " ++
      label ++ (if meter.total ≤ meter.processed then "\n" else "")

end Meter

/-- A reporter of progress, with all that it has written so far. One without a width only
counts. -/
structure Reporter where
  width : Option Int
  meter : Meter := {}
  written : String := ""
  deriving DecidableEq, Repr

namespace Reporter

/-- What a reporter is told. -/
inductive Event where
  | start (total : Int)
  | advance (label : String)
  | finish
  deriving DecidableEq, Repr

/-- What a reporter does about an event, and whether it can draw what it is to draw. A file is
counted before its bar is drawn. -/
def handle (reporter : Reporter) : Event → Reporter × Except Meter.Fault Unit
  | .start total => ({ reporter with meter := .start total }, .ok ())
  | .advance label =>
    let counted := { reporter with meter := reporter.meter.advance }
    match counted.width with
    | none => (counted, .ok ())
    | some width =>
      match counted.meter.draw? width label with
      | .ok text => ({ counted with written := counted.written ++ text }, .ok ())
      | .error fault => (counted, .error fault)
  | .finish =>
    let text := if reporter.width.isSome then reporter.meter.ending else ""
    ({ reporter with written := reporter.written ++ text }, .ok ())

/-- What a reporter does about events one after another, up to the first that it cannot draw. -/
def handleAll (reporter : Reporter) : List Event → Reporter × Except Meter.Fault Unit
  | [] => (reporter, .ok ())
  | event :: events =>
    match reporter.handle event with
    | (after, .ok ()) => after.handleAll events
    | (after, .error fault) => (after, .error fault)

end Reporter

end Minifier
