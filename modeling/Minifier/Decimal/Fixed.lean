import Minifier.Decimal.Binary64

/-!
# Decimals with a fixed number of places

A ratio is rounded once to a multiple of a power of ten, a tie going to the even multiple, and
written with all its places.
-/

set_option autoImplicit false

namespace Minifier

/-- The digits of a natural, with zeros in front up to a least number of digits. -/
def paddedDigits (width n : Nat) : List Char :=
  let digits := Nat.toDigits 10 n
  List.replicate (width - digits.length) '0' ++ digits

/-- A number of units of the last decimal place, written with a point before the places. -/
def withPlaces (places units : Nat) : List Char :=
  paddedDigits 1 (units / Nat.pow 10 places) ++
    '.' :: paddedDigits places (units % Nat.pow 10 places)

/-- A ratio written with a number of places. -/
def fixedRatio (places numerator denominator : Nat) : List Char :=
  withPlaces places (roundQuotient (numerator * Nat.pow 10 places) denominator)

/-- A value written with a number of places. -/
def Binary64.fixed (places : Nat) : Binary64 → List Char
  | .finite negative significand exponent =>
    let (a, b) := ratio significand exponent
    (if negative then ['-'] else []) ++ fixedRatio places a b
  | .infinite negative => if negative then ['-', 'i', 'n', 'f'] else ['i', 'n', 'f']
  | .notANumber => ['n', 'a', 'n']

/-- The value nearest to what is left of a value when it is rounded to a number of places. -/
def Binary64.roundedTo (places : Nat) : Binary64 → Binary64
  | .finite negative significand exponent =>
    let (a, b) := ratio significand exponent
    ofRatio negative (roundQuotient (a * Nat.pow 10 places) b) (Nat.pow 10 places)
  | other => other

/-- A decimal without the zeros at its end, and without its point when nothing follows it. -/
def dropTrailingZeros (text : List Char) : List Char :=
  match text.reverse.dropWhile (· == '0') with
  | '.' :: whole => whole.reverse
  | rest => rest.reverse

end Minifier
