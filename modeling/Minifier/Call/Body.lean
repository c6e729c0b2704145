import Minifier.Decimal.Reading
import Minifier.Json

/-!
# Bodies of calls

The body of a call is a JSON object with members of given types. Everything that is wrong with it is
collected, each complaint with the place that it is about, in the order of the members. Main
definitions: `Checked`, `Body.requiredText`, `Body.optionalText`, `Body.truth`.
-/

set_option autoImplicit false

namespace Minifier

/-- What can be wrong at one place of a body. -/
inductive Problem where
  | missing
  | notJson
  | notAnObject
  | notAText
  | unpairedSurrogate
  | notATruthValue
  | unclearTruthValue
  deriving DecidableEq, Repr

/-- The name of a problem. -/
def Problem.name : Problem → String
  | .missing => "missing"
  | .notJson => "json_invalid"
  | .notAnObject => "model_attributes_type"
  | .notAText => "string_type"
  | .unpairedSurrogate => "string_unicode"
  | .notATruthValue => "bool_type"
  | .unclearTruthValue => "bool_parsing"

/-- A problem, the names that lead to its place, and the value that it is about. -/
structure Complaint where
  place : List String
  problem : Problem
  value : Json
  deriving Repr

/-- A checked value, or everything that is wrong with it. -/
abbrev Checked (α : Type) := Except (List Complaint) α

/-- Two checked values; what is wrong with either is kept. -/
def Checked.both {α β : Type} (first : Checked α) (second : Checked β) : Checked (α × β) :=
  match first, second with
  | .ok a, .ok b => .ok (a, b)
  | .ok _, .error complaints => .error complaints
  | .error complaints, .ok _ => .error complaints
  | .error complaints, .error more => .error (complaints ++ more)

namespace Body

/-- The name of the place that holds all others. -/
def root : String :=
  "body"

/-! ## Numbers -/

/-- The floating-point number nearest to a number. -/
def numberOf? : Json → Option Binary64
  | .int value => some (Binary64.ofInt value)
  | .decimal coefficient exponent =>
    let digits := (Nat.toDigits 10 coefficient.natAbs).map fun c => c.toNat - 48
    some (Binary64.ofScaled (coefficient < 0) digits exponent)
  | .notFinite _ => some .notANumber
  | _ => none

/-- The value of a number without a fraction, if it is finite. -/
def wholeSize? : Binary64 → Option Nat
  | .finite _ significand exponent =>
    let (numerator, denominator) := Binary64.ratio significand exponent
    if numerator % denominator = 0 then some (numerator / denominator) else none
  | _ => none

/-- Whether a number is negative. -/
def isNegative : Binary64 → Bool
  | .finite negative _ _ => negative
  | .infinite negative => negative
  | .notANumber => false

/-! ## Truth values -/

/-- The words for false. -/
def falseWords : List String :=
  ["0", "off", "f", "false", "n", "no"]

/-- The words for true. -/
def trueWords : List String :=
  ["1", "on", "t", "true", "y", "yes"]

/-- The truth value that a word stands for, in any case of its ASCII letters. -/
def truthOfWord (word : String) : Except Problem Bool :=
  let word := word.map Char.toLower
  if falseWords.contains word then .ok false
  else if trueWords.contains word then .ok true
  else .error .unclearTruthValue

/-- The truth value that a number stands for: zero or one. -/
def truthOfNumber (number : Binary64) : Except Problem Bool :=
  match wholeSize? number with
  | none => .error .notATruthValue
  | some 0 => .ok false
  | some size =>
    if size = 1 && !isNegative number then .ok true else .error .unclearTruthValue

/-- The truth value that a value stands for. -/
def truthOf : Json → Except Problem Bool
  | .bool value => .ok value
  | .str word => truthOfWord word
  | .unpaired _ => .error .unpairedSurrogate
  | other =>
    match numberOf? other with
    | some number => truthOfNumber number
    | none => .error .notATruthValue

/-! ## Members -/

/-- The text that a value is. -/
def textOf : Json → Except Problem String
  | .str text => .ok text
  | .unpaired _ => .error .unpairedSurrogate
  | _ => .error .notAText

/-- Turns a problem with a member into a complaint. -/
def complain {α : Type} (name : String) (value : Json) (answer : Except Problem α) : Checked α :=
  answer.mapError fun problem => [⟨[root, name], problem, value⟩]

/-- A member that has to be a text. -/
def requiredText (body : Json) (name : String) : Checked String :=
  match body.get? name with
  | some value => complain name value (textOf value)
  | none => complain name body (.error .missing)

/-- A member that may be a text. -/
def optionalText (body : Json) (name : String) : Checked (Option String) :=
  match body.get? name with
  | none => .ok none
  | some .null => .ok none
  | some value => (complain name value (textOf value)).map some

/-- A member that may be a truth value; false when it is not there. -/
def truth (body : Json) (name : String) : Checked Bool :=
  match body.get? name with
  | none => .ok false
  | some value => complain name value (truthOf value)

/-- A body that has to be an object. -/
def object : Json → Checked Json
  | .obj members => .ok (.obj members)
  | other => .error [⟨[root], .notAnObject, other⟩]

/-! ## Numbers that cannot be written -/

mutual

/-- Whether a value holds a number that is not finite. -/
def hasNotFinite : Json → Bool
  | .int _ => false
  | .decimal coefficient exponent =>
    (numberOf? (.decimal coefficient exponent)).any Binary64.isInfinite
  | .notFinite _ => true
  | .arr items => anyNotFinite items
  | .obj members => anyMemberNotFinite members
  | _ => false

/-- Whether one of some values holds a number that is not finite. -/
def anyNotFinite : List Json → Bool
  | [] => false
  | item :: rest => hasNotFinite item || anyNotFinite rest

/-- Whether a member of an object holds a number that is not finite. -/
def anyMemberNotFinite : List (String × Json) → Bool
  | [] => false
  | (_, value) :: rest => hasNotFinite value || anyMemberNotFinite rest

end

end Body

end Minifier
