import Minifier.Decimal.Shortest
import Minifier.Text.Blank
import Minifier.Text.Digit

/-!
# Reading floating-point numbers

A number is written with an optional sign, decimal digits of any script with or without a point, and
an optional power of ten; infinity and the value that is no number have names. The value is the
nearest one to what is written. Main definition: `Binary64.read?`.
-/

set_option autoImplicit false

namespace Minifier

namespace Binary64

/-- The greatest power of ten that a finite value reaches, and the least that is told from zero. -/
def powerLimits : Int × Int :=
  (310, -330)

/-- The value of `digits · 10 ^ power`, without large intermediate numbers where the answer is
infinity or zero. -/
def ofScaled (negative : Bool) (digits : List Nat) (power : Int) : Binary64 :=
  let digits := digits.dropWhile (· == 0)
  let top : Int := (digits.length : Int) + power
  if digits.isEmpty || top < powerLimits.2 then .finite negative 0 leastExponent
  else if powerLimits.1 < top then .infinite negative
  else ofDecimal negative (digits.foldl (fun n d => n * 10 + d) 0) power

/-- The decimal digits at the start of a text, and what follows them. -/
def leadingDigits : List Char → List Nat × List Char
  | [] => ([], [])
  | c :: rest =>
    match decimalValue? c.toNat with
    | some d =>
      let (digits, rest) := leadingDigits rest
      (d :: digits, rest)
    | none => ([], c :: rest)

/-- A text without its sign, and whether the sign is negative. -/
def withoutSign : List Char → Bool × List Char
  | '-' :: rest => (true, rest)
  | '+' :: rest => (false, rest)
  | rest => (false, rest)

/-- Reads a power of ten; there has to be one if an exponent mark stands there. -/
def readPower? : List Char → Option Int
  | [] => some 0
  | c :: rest =>
    if c == 'e' || c == 'E' then
      let (negative, rest) := withoutSign rest
      match leadingDigits rest with
      | (first :: others, []) =>
        let size : Nat := (first :: others).foldl (fun n d => n * 10 + d) 0
        some (if negative then -Int.ofNat size else Int.ofNat size)
      | _ => none
    else none

/-- Reads digits with an optional point and power. -/
def readDigits? (negative : Bool) (text : List Char) : Option Binary64 :=
  let (whole, rest) := leadingDigits text
  let (places, rest) := match rest with
    | '.' :: rest => leadingDigits rest
    | rest => ([], rest)
  if whole.isEmpty && places.isEmpty then none
  else
    (readPower? rest).map fun power =>
      ofScaled negative (whole ++ places) (power - (places.length : Int))

/-- Reads a number, with blanks around it. -/
def read? (text : List Char) : Option Binary64 :=
  let (negative, body) := withoutSign (Chars.trim text)
  let name := String.ofList (body.map Char.toLower)
  if name = "inf" || name = "infinity" then some (.infinite negative)
  else if name = "nan" then some .notANumber
  else readDigits? negative body

end Binary64

end Minifier
