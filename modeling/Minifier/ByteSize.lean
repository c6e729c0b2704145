import Minifier.Decimal.Fixed

/-!
# Sizes for people

A size in bytes is written in the largest of three units that it reaches, with at most two decimal
places. Main definition: `byteSizeText`.
-/

set_option autoImplicit false

namespace Minifier

/-- A size so large that no floating-point number holds it. -/
structure SizeTooLarge where
  deriving DecidableEq, Repr

/-- The wording of the error. -/
def SizeTooLarge.message (_ : SizeTooLarge) : String :=
  "integer division result too large for a float"

/-- The greatest number of decimal places of a size. -/
def sizePlaces : Nat :=
  2

/-- A size in units of a given number of bytes, rounded to so many places and without zeros at its
end. -/
def inUnit (size unit : Nat) : Except SizeTooLarge String :=
  let quotient := Binary64.ofRatio false size unit
  if quotient.isInfinite then .error ⟨⟩
  else
    .ok (String.ofList (dropTrailingZeros ((quotient.roundedTo sizePlaces).fixed sizePlaces)))

/-- A size in bytes, kilobytes or megabytes. -/
def byteSizeText (size : Int) : Except SizeTooLarge String :=
  if size < 1024 then .ok (toString size ++ " B")
  else if size < 1024 * 1024 then (inUnit size.natAbs 1024).map (· ++ " KB")
  else (inUnit size.natAbs (1024 * 1024)).map (· ++ " MB")

end Minifier
