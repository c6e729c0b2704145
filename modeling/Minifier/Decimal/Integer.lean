import Minifier.Text.Blank
import Minifier.Text.Digit

/-!
# Reading integers

An integer is written with an optional sign and decimal digits of any script, with single
underscores between digits and blanks around it. A numeral of more than 4300 digits is refused
rather than converted. Main definition: `Integer.read`.
-/

set_option autoImplicit false

namespace Minifier

namespace Integer

/-- Why a text gives no integer. -/
inductive ReadError where
  | notANumeral
  | tooLong (digits : Nat)
  deriving DecidableEq, Repr

/-- The value of a digit of a given base: decimal digits of any script, then ASCII letters. -/
def digitValue? (base : Nat) (c : Char) : Option Nat :=
  let value :=
    if 'a' ≤ c && c ≤ 'z' then some (c.toNat - 87)
    else if 'A' ≤ c && c ≤ 'Z' then some (c.toNat - 55)
    else decimalValue? c.toNat
  value.filter (· < base)

/-- The values of the digits of a numeral, first digit first. An underscore may stand only after a
digit, which `opened` says, and before one. -/
def digitsOf? (base : Nat) : Bool → List Char → Option (List Nat)
  | opened, [] => if opened then some [] else none
  | opened, c :: rest =>
    if c = '_' then if opened then digitsOf? base false rest else none
    else
      match digitValue? base c with
      | some value => (digitsOf? base true rest).map (value :: ·)
      | none => none

/-- The number that a list of digits writes. -/
def ofDigits (base : Nat) (digits : List Nat) : Nat :=
  digits.foldl (fun n digit => n * base + digit) 0

/-- The most digits that a numeral may have whose base is no power of two. -/
def digitLimit : Nat :=
  4300

/-- The least number with too many digits to be written. -/
def numeralLimit : Nat :=
  Nat.pow 10 digitLimit

/-- Removes the letter prefix that a base allows, with an underscore after it. -/
def dropBaseMark (base : Nat) (text : List Char) : List Char :=
  let marks : List Char :=
    if base = 16 then ['x', 'X'] else if base = 8 then ['o', 'O']
    else if base = 2 then ['b', 'B'] else []
  match text with
  | '0' :: mark :: rest =>
    if marks.contains mark then
      match rest with
      | '_' :: rest => rest
      | rest => rest
    else text
  | text => text

/-- Reads an integer in a given base. -/
def read (base : Nat) (text : List Char) : Except ReadError Int :=
  let (negative, body) := match Chars.trim text with
    | '-' :: rest => (true, rest)
    | '+' :: rest => (false, rest)
    | rest => (false, rest)
  match digitsOf? base false (dropBaseMark base body) with
  | none => .error .notANumeral
  | some digits =>
    if base = 10 && digitLimit < digits.length then .error (.tooLong digits.length)
    else
      let size := Int.ofNat (ofDigits base digits)
      .ok (if negative then -size else size)

end Integer

end Minifier
