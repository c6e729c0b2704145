import Minifier.Text.CaseTable

/-!
# Case variants in patterns

A pattern that ignores case compares lower-case forms, and in addition takes for equal the
lower-case letters that share their upper case (such as `s` and the long `ſ`). Main definition:
`caseVariants`, the code points that a pattern takes for equal to a given one.
-/

set_option autoImplicit false

namespace Minifier

/-- Lower-case code points, each with the others that share its upper case. -/
def caseSiblings : List (Nat × List Nat) := [
  (105, [305]), (115, [383]), (181, [956]), (305, [105]), (383, [115]), (837, [953, 8126]),
   (912, [8147]), (944, [8163]), (946, [976]), (949, [1013]), (952, [977]), (953, [837, 8126]),
   (954, [1008]), (956, [181]), (960, [982]), (961, [1009]), (962, [963]), (963, [962]),
   (966, [981]), (976, [946]), (977, [952]), (981, [966]), (982, [960]), (1008, [954]),
   (1009, [961]), (1013, [949]), (1074, [7296]), (1076, [7297]), (1086, [7298]), (1089, [7299]),
   (1090, [7300, 7301]), (1098, [7302]), (1123, [7303]), (7296, [1074]), (7297, [1076]),
   (7298, [1086]), (7299, [1089]), (7300, [1090, 7301]), (7301, [1090, 7300]), (7302, [1098]),
   (7303, [1123]), (7304, [42571]), (7777, [7835]), (7835, [7777]), (8126, [837, 953]),
   (8147, [912]), (8163, [944]), (42571, [7304]), (64261, [64262]), (64262, [64261])]

/-- The code points whose lower-case form is the given one. -/
def upperForms (code : Nat) : List Nat :=
  lowerRuns.filterMap fun run =>
    let source := (Int.ofNat code - run.shift).toNat
    if run.contains source && lowerCode source == code then some source else none

/-- All code points that agree with the given one when case is ignored. -/
def caseVariants (code : Nat) : List Nat :=
  let lower := lowerCode code
  let family := lower :: (caseSiblings.lookup lower).getD []
  family ++ family.flatMap upperForms

/-- The code points that agree with the given one when only the case of ASCII letters is
ignored. -/
def asciiCaseVariants (code : Nat) : List Nat :=
  if 65 ≤ code && code ≤ 90 then [code, code + 32]
  else if 97 ≤ code && code ≤ 122 then [code, code - 32]
  else [code]

end Minifier
