/-!
# Rounding a quotient

The nearest integer to a quotient of naturals; of two nearest ones the even one.
-/

set_option autoImplicit false

namespace Minifier

/-- The integer nearest to `numerator / denominator`, a tie going to the even one. -/
def roundQuotient (numerator denominator : Nat) : Nat :=
  let whole := numerator / denominator
  let rest := 2 * (numerator % denominator)
  if denominator < rest || (rest = denominator && whole % 2 = 1) then whole + 1 else whole

end Minifier
