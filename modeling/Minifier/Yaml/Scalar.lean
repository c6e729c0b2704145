import Minifier.Decimal.Integer
import Minifier.Decimal.Reading
import Minifier.Text.Base64
import Minifier.Text.Case
import Minifier.Text.Parts
import Minifier.Yaml.Node

/-!
# Values of scalars

What the text of a scalar means under its tag. Main definition: `Scalar.ofText`.
-/

set_option autoImplicit false

namespace Minifier

namespace Yaml

/-- A value that holds no others. -/
inductive Scalar where
  | null
  | bool (value : Bool)
  | int (value : Int)
  | float (value : Binary64)
  | text (value : String)
  | bytes (value : Bytes)
  | moment (value : Moment)
  deriving DecidableEq, Repr

namespace Scalar

/-- A text without its sign, and whether the sign is negative; there has to be something to look
at. -/
def sign (chars : List Char) : Except Fault (Bool × List Char) :=
  match chars with
  | '-' :: rest => .ok (true, rest)
  | '+' :: rest => .ok (false, rest)
  | [] => .error .emptyNumeral
  | rest => .ok (false, rest)

/-- A text without the underscores that group its digits. -/
def ungrouped (chars : List Char) : List Char :=
  chars.filter (· != '_')

/-- Reads an integer in a base. -/
def readBase (base : Nat) (chars : List Char) : Except Fault Int :=
  (Integer.read base chars).mapError fun error =>
    match error with
    | .notANumeral => .numeral base (String.ofList chars)
    | .tooLong digits => .numeralTooLong digits

/-- The parts of a text between its colons. -/
def colonParts (chars : List Char) : List (List Char) :=
  partsBetween ':' chars

/-- Reads an integer without its sign: binary, hexadecimal, octal, to the base sixty, or decimal. -/
def readSize (chars : List Char) : Except Fault Int :=
  match chars with
  | [] => .error .emptyNumeral
  | ['0'] => .ok 0
  | '0' :: 'b' :: rest => readBase 2 rest
  | '0' :: 'x' :: rest => readBase 16 rest
  | '0' :: _ => readBase 8 chars
  | _ =>
    if chars.contains ':' then do
      let parts ← (colonParts chars).mapM (readBase 10)
      return parts.foldl (fun total part => total * 60 + part) 0
    else readBase 10 chars

/-- Reads an integer. -/
def readInt (chars : List Char) : Except Fault Int := do
  let (negative, rest) ← sign (ungrouped chars)
  let size ← readSize rest
  return if negative then -size else size

/-- Reads a floating-point number that is written in one part. -/
def readPart (chars : List Char) : Except Fault Binary64 :=
  match Binary64.read? chars with
  | some value => .ok value
  | none => .error (.decimal (String.ofList chars))

/-- The sum of parts that are sixty times as much worth the further left they stand; `weight` is
what the first one of the list, which stands last, is worth. -/
def sumSixtieths : Nat → Binary64 → List Binary64 → Except Fault Binary64
  | _, total, [] => .ok total
  | weight, total, part :: rest =>
    let factor := Binary64.ofInt weight
    if factor.isInfinite then .error .tooLargeForDecimal
    else sumSixtieths (weight * 60) (total.add (part.mul factor)) rest

/-- Reads a floating-point number. -/
def readFloat (chars : List Char) : Except Fault Binary64 := do
  let (negative, rest) ← sign (lowerCase (String.ofList (ungrouped chars))).toList
  let signed (value : Binary64) : Binary64 := if negative then value.neg else value
  if rest = ".inf".toList then return signed (.infinite false)
  if rest = ".nan".toList then return .notANumber
  if rest.contains ':' then
    let parts ← (colonParts rest).mapM readPart
    return signed (← sumSixtieths 1 (Binary64.ofInt 0) parts.reverse)
  return signed (← readPart rest)

/-- The value of a text under the tag of a scalar. -/
def ofText (tag : Tag) (chars : List Char) : Except Fault Scalar :=
  match tag with
  | .null => .ok .null
  | .bool =>
    match Tag.truthValues.lookup (lowerCase (String.ofList chars)) with
    | some value => .ok (.bool value)
    | none => .error .notATruthValue
  | .int => (readInt chars).map .int
  | .float => (readFloat chars).map .float
  | .binary =>
    if chars.all fun c => c.toNat < 128 then
      match Base64.decode? chars with
      | some value => .ok (.bytes value)
      | none => .error .malformed
    else .error .malformed
  | .moment =>
    match Moment.fields? (Tag.withoutLineFeed chars) with
    | some fields => ((Moment.ofFields fields).map Scalar.moment).mapError .moment
    | none => .error .notAMoment
  | .text => .ok (.text (String.ofList chars))
  | _ => .error .malformed

/-- Whether a floating-point number is a given integer. -/
def floatIsInt (x : Binary64) (n : Int) : Bool :=
  match x with
  | .finite negative significand exponent =>
    let (a, b) := Binary64.ratio significand exponent
    (if negative then -(a : Int) else a) == n * b
  | _ => false

/-- The integer that a truth value counts as. -/
def truthNumber (b : Bool) : Int :=
  if b then 1 else 0

/-- Whether two scalars are one key of a mapping: numbers and truth values are compared by what they
count. -/
def sameKey : Scalar → Scalar → Bool
  | .bool a, .int n => truthNumber a == n
  | .int n, .bool a => truthNumber a == n
  | .bool a, .float x => floatIsInt x (truthNumber a)
  | .float x, .bool a => floatIsInt x (truthNumber a)
  | .int n, .float x => floatIsInt x n
  | .float x, .int n => floatIsInt x n
  | .float x, .float y =>
    x == y || (floatIsInt x 0 && floatIsInt y 0)
  | .moment a, .moment b => a.same b
  | a, b => a == b

end Scalar

end Yaml

end Minifier
