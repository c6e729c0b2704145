import Minifier.Decimal.Rounding

/-!
# Binary floating point

Numbers of 53 significant bits with a sign, the two infinities and a value that is no number. A
finite value is kept exactly, as a significand times a power of two; every operation computes the
exact result and rounds it once, a tie going to the even significand. Main definitions:
`Binary64.ofRatio`, `Binary64.add`, `Binary64.mul`, `Binary64.ratio`.
-/

set_option autoImplicit false

namespace Minifier

/-- A binary floating-point number; a finite one is `± significand · 2 ^ exponent`. -/
inductive Binary64 where
  | finite (negative : Bool) (significand : Nat) (exponent : Int)
  | infinite (negative : Bool)
  | notANumber
  deriving DecidableEq, Repr

namespace Binary64

/-- The number of bits of a significand. -/
def precision : Nat :=
  53

/-- The exponent of the smallest values. -/
def leastExponent : Int :=
  -1074

/-- The exponent of the largest values. -/
def exponentLimit : Int :=
  971

/-- A ratio divided by a power of two, as a ratio. -/
def unscale (numerator denominator : Nat) (exponent : Int) : Nat × Nat :=
  if exponent < 0 then (numerator * Nat.pow 2 exponent.natAbs, denominator)
  else (numerator, denominator * Nat.pow 2 exponent.natAbs)

/-- The greatest power of two that is not above a positive ratio. -/
def binade (numerator denominator : Nat) : Int :=
  let guess : Int := (numerator.log2 : Int) - (denominator.log2 : Int)
  let (n, d) := unscale numerator denominator guess
  if d ≤ n then guess else guess - 1

/-- A value from a significand of at most one bit too many; one that is too large is infinite. -/
def normalize (negative : Bool) (significand : Nat) (exponent : Int) : Binary64 :=
  let (significand, exponent) :=
    if Nat.pow 2 precision ≤ significand then (significand / 2, exponent + 1)
    else (significand, exponent)
  if exponentLimit < exponent then .infinite negative else .finite negative significand exponent

/-- The value nearest to a ratio. -/
def ofRatio (negative : Bool) (numerator denominator : Nat) : Binary64 :=
  if numerator = 0 then .finite negative 0 leastExponent
  else
    let exponent := max (binade numerator denominator - (precision - 1)) leastExponent
    let (n, d) := unscale numerator denominator exponent
    normalize negative (roundQuotient n d) exponent

/-- The value nearest to an integer. -/
def ofInt (n : Int) : Binary64 :=
  ofRatio (n < 0) n.natAbs 1

/-- Whether a value is one of the infinities. -/
def isInfinite : Binary64 → Bool
  | .infinite _ => true
  | _ => false

/-- The size of a finite value, as a ratio. -/
def ratio (significand : Nat) (exponent : Int) : Nat × Nat :=
  unscale significand 1 (-exponent)

/-- The value with the other sign. -/
def neg : Binary64 → Binary64
  | .finite negative significand exponent => .finite (!negative) significand exponent
  | .infinite negative => .infinite (!negative)
  | .notANumber => .notANumber

/-- The product of two values. -/
def mul : Binary64 → Binary64 → Binary64
  | .finite s m e, .finite t n f =>
    let (a, b) := ratio m e
    let (c, d) := ratio n f
    ofRatio (s != t) (a * c) (b * d)
  | .finite s m _, .infinite t => if m = 0 then .notANumber else .infinite (s != t)
  | .infinite s, .finite t n _ => if n = 0 then .notANumber else .infinite (s != t)
  | .infinite s, .infinite t => .infinite (s != t)
  | .notANumber, _ => .notANumber
  | _, .notANumber => .notANumber

/-- The sum of two values; a sum of zero is negative only when both summands are. -/
def add : Binary64 → Binary64 → Binary64
  | .finite s m e, .finite t n f =>
    let (a, b) := ratio m e
    let (c, d) := ratio n f
    let signed (negative : Bool) (size : Nat) : Int := if negative then -size else size
    let total := signed s (a * d) + signed t (c * b)
    if total = 0 then .finite (s && t) 0 leastExponent
    else ofRatio (total < 0) total.natAbs (b * d)
  | .finite _ _ _, .infinite t => .infinite t
  | .infinite s, .finite _ _ _ => .infinite s
  | .infinite s, .infinite t => if s = t then .infinite s else .notANumber
  | .notANumber, _ => .notANumber
  | _, .notANumber => .notANumber

/-- A value divided by a positive integer. -/
def divNat (value : Binary64) (divisor : Nat) : Binary64 :=
  match value with
  | .finite negative significand exponent =>
    let (a, b) := ratio significand exponent
    ofRatio negative a (b * divisor)
  | other => other

/-- The integer nearest to a finite value, a tie going to the even one. -/
def round? : Binary64 → Option Int
  | .finite negative significand exponent =>
    let (a, b) := ratio significand exponent
    let size : Int := roundQuotient a b
    some (if negative then -size else size)
  | _ => none

end Binary64

end Minifier
