import Minifier.Text.Quoted

/-!
# Switches of a command

A switch is an argument that says how a command works. It is spelt as a dash and a letter, or as two
dashes and a word; a value may follow it. This module also lists everything that can be wrong with
the arguments of a command.
-/

set_option autoImplicit false

namespace Minifier

/-- A switch: how it is spelt, whether it takes a value, and what it means. -/
structure Switch (α : Type) where
  spellings : List String
  takesValue : Bool := false
  meaning : α
  deriving Repr

namespace Switch

variable {α : Type}

/-- The name of a switch in a message. -/
def name (switch : Switch α) : String :=
  "/".intercalate switch.spellings

/-- All spellings of some switches, each with its switch. -/
def spelt (switches : List (Switch α)) : List (String × Switch α) :=
  switches.flatMap fun switch => switch.spellings.map fun spelling => (spelling, switch)

/-- The switch of a given spelling. -/
def find? (switches : List (Switch α)) (spelling : String) : Option (Switch α) :=
  (spelt switches).lookup spelling

end Switch

/-- What can be wrong with the arguments of a command. Switches and other parts of the command are
given by their names. -/
inductive ArgumentFault where
  | ambiguous (argument : String) (candidates : List String)
  | valueMissing (switch : String)
  | valueIgnored (switch value : String)
  | notAChoice (part value : String) (choices : List String)
  | notAnInteger (switch value : String)
  | conflict (switch other : String)
  | missing (part : String)
  | unknown (arguments : List String)
  deriving DecidableEq, Repr

namespace ArgumentFault

/-- The wording of what is wrong with one part of a command. -/
def about (part problem : String) : String :=
  "argument " ++ part ++ ": " ++ problem

/-- The wording of a fault. -/
def message : ArgumentFault → String
  | .ambiguous argument candidates =>
    "ambiguous option: " ++ argument ++ " could match " ++ ", ".intercalate candidates
  | .valueMissing switch => about switch "expected one argument"
  | .valueIgnored switch value => about switch ("ignored explicit argument " ++ quoted value)
  | .notAChoice part value choices =>
    about part ("invalid choice: " ++ quoted value ++ " (choose from " ++
      ", ".intercalate (choices.map quoted) ++ ")")
  | .notAnInteger switch value => about switch ("invalid int value: " ++ quoted value)
  | .conflict switch other => about switch ("not allowed with argument " ++ other)
  | .missing part => "the following arguments are required: " ++ part
  | .unknown arguments => "unrecognized arguments: " ++ " ".intercalate arguments

end ArgumentFault

end Minifier
