import Minifier.Text.Quoted

/-!
# What can be wrong with a YAML text

Most faults make a text malformed. The others concern values whose spelling was accepted: a numeral
that is no number, a moment that the calendar does not have, a code point that does not exist.
-/

set_option autoImplicit false

namespace Minifier

namespace Yaml

/-- What is wrong with a moment. -/
inductive MomentFault where
  | year (year : Nat)
  | month
  | day
  | hour
  | minute
  | second
  | offset (minutes : Int)
  deriving DecidableEq, Repr

/-- Why a text gives no value. -/
inductive Fault where
  | malformed
  | codePoint (code : Nat)
  | numeral (base : Nat) (text : String)
  | numeralTooLong (digits : Nat)
  | numberTooLong
  | decimal (text : String)
  | tooLargeForDecimal
  | emptyNumeral
  | notATruthValue
  | notAMoment
  | moment (fault : MomentFault)
  deriving DecidableEq, Repr

/-- The text of a span of time: its whole days, counted downwards, and the seconds left. -/
def spanText (minutes : Int) : String :=
  let days := minutes.fdiv 1440
  let seconds := (minutes - days * 1440) * 60
  "datetime.timedelta(days=" ++ toString days ++
    (if seconds = 0 then "" else ", seconds=" ++ toString seconds) ++ ")"

/-- The wording of the faults of moments. -/
def MomentFault.message : MomentFault → String
  | .year y => "year " ++ toString y ++ " is out of range"
  | .month => "month must be in 1..12"
  | .day => "day is out of range for month"
  | .hour => "hour must be in 0..23"
  | .minute => "minute must be in 0..59"
  | .second => "second must be in 0..59"
  | .offset span =>
    "offset must be a timedelta strictly between -timedelta(hours=24) and " ++
      "timedelta(hours=24), not " ++ spanText span ++ "."

/-- The greatest number that a code point may be compared with. -/
def codeLimit : Nat :=
  Nat.pow 2 31

/-- The wording of a fault, where it has one. -/
def Fault.message? : Fault → Option String
  | .malformed => none
  | .codePoint code =>
    some (if code < codeLimit then "chr() arg not in range(0x110000)"
      else "Python int too large to convert to C int")
  | .numeral base text =>
    some ("invalid literal for int() with base " ++ toString base ++ ": " ++ quoted text)
  | .numeralTooLong digits =>
    some ("Exceeds the limit (4300 digits) for integer string conversion: value has " ++
      toString digits ++ " digits; use sys.set_int_max_str_digits() to increase the limit")
  | .numberTooLong =>
    some ("Exceeds the limit (4300 digits) for integer string conversion; " ++
      "use sys.set_int_max_str_digits() to increase the limit")
  | .decimal text => some ("could not convert string to float: " ++ quoted text)
  | .tooLargeForDecimal => some "int too large to convert to float"
  | .emptyNumeral => none
  | .notATruthValue => none
  | .notAMoment => none
  | .moment cause => some cause.message

end Yaml

end Minifier
