import Minifier.Text.CaseTable

/-!
# Letter case of words

Lower case and capitalisation of a string. The capital sigma has two lower-case forms, and takes
the final one where a cased character stands before it and none after it, looking through marks
and the like. Main definitions: `lowerCase`, `capitalize`.
-/

set_option autoImplicit false

namespace Minifier

/-- Whether the first code point that the rule looks at is cased. -/
def seesCased : List Nat → Bool
  | [] => false
  | code :: rest => if isCaseTransparentCode code then seesCased rest else isCasedCode code

/-- The lower-case form of one code point between its neighbours: those before it are given with
the nearest first. -/
def lowerBetween (before : List Nat) (code : Nat) (after : List Nat) : List Nat :=
  if code == 0x3A3 then [if seesCased before && !seesCased after then 0x3C2 else 0x3C3]
  else if code == 0x130 then [0x69, 0x307]
  else [lowerCode code]

/-- The lower-case form of what follows the code points `before`. -/
def lowerAfter : List Nat → List Nat → List Nat
  | _, [] => []
  | before, code :: rest =>
    lowerBetween before code rest ++ lowerAfter (code :: before) rest

/-- The code points of a string. -/
def codesOf (s : String) : List Nat :=
  s.toList.map Char.toNat

/-- The string of a list of code points. -/
def stringOfCodes (codes : List Nat) : String :=
  String.ofList (codes.map Char.ofNat)

/-- A string in lower case. -/
def lowerCase (s : String) : String :=
  stringOfCodes (lowerAfter [] (codesOf s))

/-- A string with its first character in title case and the others in lower case. -/
def capitalize (s : String) : String :=
  match codesOf s with
  | [] => ""
  | first :: rest => stringOfCodes (titleCodes first ++ lowerAfter [first] rest)

end Minifier
