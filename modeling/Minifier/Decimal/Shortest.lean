import Minifier.Decimal.Fixed

/-!
# The shortest decimal that reads back

Of all decimals that round to a value, the one with the fewest digits is written; of several of that
length, the nearest. A value is written with a point in it when its first digit stands between the
fourth place after the point and the sixteenth before it, else with an exponent.
-/

set_option autoImplicit false

namespace Minifier

namespace Binary64

/-- The value of `digits · 10 ^ power`. -/
def ofDecimal (negative : Bool) (digits : Nat) (power : Int) : Binary64 :=
  if power < 0 then ofRatio negative digits (Nat.pow 10 power.natAbs)
  else ofRatio negative (digits * Nat.pow 10 power.natAbs) 1

/-- The greatest power of ten that is not above a positive ratio, searched downwards. -/
def decade (numerator denominator : Nat) : Nat → Int → Int
  | 0, guess => guess
  | fuel + 1, guess =>
    let below :=
      if guess < 0 then numerator * Nat.pow 10 guess.natAbs < denominator
      else numerator < denominator * Nat.pow 10 guess.natAbs
    if below then decade numerator denominator fuel (guess - 1) else guess

/-- A positive ratio in units of a power of ten. -/
def inUnits (numerator denominator : Nat) (power : Int) : Nat × Nat :=
  if power < 0 then (numerator * Nat.pow 10 power.natAbs, denominator)
  else (numerator, denominator * Nat.pow 10 power.natAbs)

/-- The one of two neighbouring numbers of units that reads back as a value, the nearer one when
both do. -/
def readsBack? (value : Binary64) (power : Int) (below nearer : Nat) : Option Nat :=
  let farther := if nearer = below then below + 1 else below
  if ofDecimal false nearer power = value then some nearer
  else if ofDecimal false farther power = value then some farther
  else none

/-- The shortest decimal that reads back as a positive value whose first digit has the power of ten
`top`, among those of `count` digits or more. With 17 digits every value reads back. -/
def shortestFrom (numerator denominator : Nat) (top : Int) : Nat → Nat → Nat × Int
  | 0, count =>
    let power := top - (count : Int) + 1
    let (n, d) := inUnits numerator denominator power
    (roundQuotient n d, power)
  | fuel + 1, count =>
    let power := top - (count : Int) + 1
    let (n, d) := inUnits numerator denominator power
    match readsBack? (ofRatio false numerator denominator) power (n / d) (roundQuotient n d) with
    | some units => (units, power)
    | none => shortestFrom numerator denominator top fuel (count + 1)

/-- The shortest decimal that reads back as a positive value. -/
def shortest (significand : Nat) (exponent : Int) : Nat × Int :=
  let (a, b) := ratio significand exponent
  let guess : Int := ((binade a b + 1) * 30103) / 100000 + 1
  shortestFrom a b (decade a b 8 guess) 16 1

/-- Digits with a point after the first `whole` of them; zeros fill the places that have no
digit. -/
def pointed (digits : List Char) (whole : Int) : List Char :=
  if whole ≤ 0 then '0' :: '.' :: List.replicate whole.natAbs '0' ++ digits
  else
    let count := whole.natAbs
    if digits.length ≤ count then
      digits ++ List.replicate (count - digits.length) '0' ++ ['.', '0']
    else digits.take count ++ '.' :: digits.drop count

/-- Digits with an exponent of at least two digits; a point follows the first digit when there are
more. -/
def withExponent (digits : List Char) (exponent : Int) : List Char :=
  let mantissa := match digits with
    | first :: second :: rest => first :: '.' :: second :: rest
    | short => short
  mantissa ++ 'e' :: (if exponent < 0 then '-' else '+') :: paddedDigits 2 exponent.natAbs

/-- The digits of a decimal without zeros at their end. -/
def significantDigits (n : Nat) : List Char :=
  ((Nat.toDigits 10 n).reverse.dropWhile (· == '0')).reverse

/-- The text of a positive value. -/
def sizeText (significand : Nat) (exponent : Int) : List Char :=
  let (number, power) := shortest significand exponent
  let digits := significantDigits number
  let whole : Int := ((Nat.toDigits 10 number).length : Int) + power
  if -4 < whole && whole ≤ 16 then pointed digits whole else withExponent digits (whole - 1)

/-- The text of a value. -/
def text : Binary64 → String
  | .finite negative significand exponent =>
    let size := if significand = 0 then ['0', '.', '0'] else sizeText significand exponent
    String.ofList ((if negative then ['-'] else []) ++ size)
  | .infinite negative => if negative then "-inf" else "inf"
  | .notANumber => "nan"

end Binary64

end Minifier
