import Minifier.Decimal.Fixed

/-!
# Meters

A meter says how far a run has come, and draws the bar that shows it. The bar is redrawn on one
line, which ends with the last file or, when a run stops short, with the run. Main definitions:
`Meter.advance`, `Meter.bar`, `Meter.ending`.
-/

set_option autoImplicit false

namespace Minifier

/-- How many files a run has, and how many it is done with. -/
structure Meter where
  total : Int := 0
  processed : Nat := 0
  deriving DecidableEq, Repr

namespace Meter

/-- The meter at the start of a run over a number of files. -/
def start (total : Int) : Meter :=
  ⟨total, 0⟩

/-- The meter after one more file. -/
def advance (meter : Meter) : Meter :=
  { meter with processed := meter.processed + 1 }

/-- The part of the files that is done, at most one, in percent. -/
def percentage (meter : Meter) : Binary64 :=
  let share :=
    if 0 < meter.total && meter.total ≤ meter.processed then Binary64.ofInt 1
    else Binary64.ofRatio (meter.total < 0) meter.processed meter.total.natAbs
  share.mul (Binary64.ofInt 100)

/-- The number of full cells of a bar. -/
def filledCells (meter : Meter) (width : Int) : Int :=
  ((meter.percentage.mul (Binary64.ofInt width)).divNat 100).round?.getD 0

/-- A number of equal cells, none for a negative number. -/
def cells (c : Char) (count : Int) : String :=
  String.ofList (List.replicate count.toNat c)

/-- What is drawn after a file: the bar over the line that it stands on, and the end of the line
after the last file. Without files nothing is drawn. -/
def bar (meter : Meter) (width : Int) (label : String) : String :=
  if meter.total = 0 then ""
  else
    let filled := meter.filledCells width
    "\rProgress: [" ++ cells '█' filled ++ cells '░' (width - filled) ++ "] " ++
      String.ofList (meter.percentage.fixed 1) ++ "% (" ++ toString meter.processed ++ "/" ++
      toString meter.total ++ ") " ++ label ++
      (if meter.total ≤ meter.processed then "\n" else "")

/-- What is drawn at the end of a run: the end of a line that the last file did not end. -/
def ending (meter : Meter) : String :=
  if meter.total ≠ 0 && (meter.processed : Int) < meter.total then "\n" else ""

end Meter

end Minifier
