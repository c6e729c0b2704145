import Minifier.Arguments.Switch
import Minifier.Text.Digit
import Minifier.Text.Search

/-!
# From arguments to steps

First every argument is taken for a switch or for an operand; after a double dash all are operands.
Then the arguments are read from left to right, and each of them, alone or with the one behind it,
becomes a step. Main definitions: `Argument.ofTexts`, `Step.ofArguments`.
-/

set_option autoImplicit false

namespace Minifier

/-- What an argument is taken for. A letter comes with what is written directly behind it, a word
with what is written behind an equals sign. -/
inductive Role (α : Type) where
  | operand
  | separator
  | letter (switch : Switch α) (behind : List Char)
  | word (switch : Switch α) (value : Option String)
  | strange
  deriving Repr

/-- An argument and what it is taken for. -/
structure Argument (α : Type) where
  text : String
  role : Role α
  deriving Repr

namespace Argument

variable {α : Type}

/-- Whether characters are decimal digits of any script, at least one. -/
def areDigits (chars : List Char) : Bool :=
  !chars.isEmpty && chars.all fun c => isDecimalCode c.toNat

/-- Whether a number without a sign is written: digits, perhaps with a point in front of the last
ones; a line break may follow. -/
def isNumeral (chars : List Char) : Bool :=
  let body := if chars.getLast? = some '\n' then chars.dropLast else chars
  match splitAt? ['.'] body with
  | none => areDigits body
  | some (whole, fraction) => (whole.isEmpty || areDigits whole) && areDigits fraction

/-- What an argument is taken for that starts with a dash but spells no switch: a negative number
and a text with a space are operands. -/
def roleOfOther (chars : List Char) : Role α :=
  if isNumeral chars || chars.contains ' ' then .operand else .strange

/-- What an argument is taken for that starts with two dashes. A word may be cut short, as long as
only one switch starts that way. -/
def roleOfWord (switches : List (Switch α)) (text : String) (chars : List Char) :
    Except ArgumentFault (Role α) :=
  let (stem, value) := match splitAt? ['='] text.toList with
    | some (stem, value) => (stem, some (String.ofList value))
    | none => (text.toList, none)
  match Switch.find? switches (String.ofList stem) with
  | some switch => .ok (.word switch value)
  | none =>
    match (Switch.spelt switches).filter fun (spelling, _) => stem.isPrefixOf spelling.toList with
    | [] => .ok (roleOfOther chars)
    | [(_, switch)] => .ok (.word switch value)
    | candidates => .error (.ambiguous text (candidates.map Prod.fst))

/-- What an argument is taken for in front of a double dash. -/
def roleOf (switches : List (Switch α)) (text : String) : Except ArgumentFault (Role α) :=
  match text.toList with
  | '-' :: '-' :: rest => roleOfWord switches text ('-' :: rest)
  | '-' :: letter :: behind =>
    match Switch.find? switches (String.ofList ['-', letter]) with
    | some switch => .ok (.letter switch behind)
    | none => .ok (roleOfOther (letter :: behind))
  | _ => .ok .operand

/-- What each argument is taken for. -/
def ofTexts (switches : List (Switch α)) : List String → Except ArgumentFault (List (Argument α))
  | [] => .ok []
  | text :: rest =>
    if text = "--" then .ok (⟨text, .separator⟩ :: rest.map fun operand => ⟨operand, .operand⟩)
    else do
      let role ← roleOf switches text
      return ⟨text, role⟩ :: (← ofTexts switches rest)

/-- The text of the first of some arguments if it is an operand. -/
def firstOperand? : List (Argument α) → Option String
  | ⟨text, .operand⟩ :: _ => some text
  | _ => none

end Argument

/-- What a command takes besides switches: nothing, one operand, or an operand with everything
behind it. -/
inductive Operands where
  | nothing
  | single
  | everything
  deriving DecidableEq, Repr

/-- One step in reading arguments. The last one may be a fault. -/
inductive Step (α : Type) where
  | set (meaning : α) (value : Option String)
  | operands (texts : List String)
  | unknown (text : String)
  | fault (fault : ArgumentFault)
  deriving DecidableEq, Repr

namespace Step

variable {α : Type}

/-- The steps of one argument, and whether the operand behind it is used up. -/
abbrev Sighting (α : Type) := Except ArgumentFault (List (Step α) × Bool)

/-- A switch that takes the operand behind its argument. -/
def setByNext (switch : Switch α) (next : Option String) : Sighting α :=
  match next with
  | some value => .ok ([.set switch.meaning (some value)], true)
  | none => .error (.valueMissing switch.name)

/-- The value of a letter, from what is written directly behind it: an equals sign may stand in
front. -/
def valueBehind : List Char → String
  | '=' :: value => String.ofList value
  | value => String.ofList value

/-- The steps of a letter. Behind a letter that takes no value other letters may be written. -/
def ofLetter (switches : List (Switch α)) (next : Option String) (switch : Switch α) :
    List Char → Sighting α
  | [] =>
    if switch.takesValue then setByNext switch next else .ok ([.set switch.meaning none], false)
  | c :: rest =>
    if switch.takesValue then .ok ([.set switch.meaning (some (valueBehind (c :: rest)))], false)
    else if c = '=' || c = '-' then .error (.valueIgnored switch.name (valueBehind (c :: rest)))
    else
      match Switch.find? switches (String.ofList ['-', c]) with
      | none =>
        .ok ([.set switch.meaning none, .unknown (String.ofList ('-' :: c :: rest))], false)
      | some other =>
        (ofLetter switches next other rest).map fun (steps, taken) =>
          (.set switch.meaning none :: steps, taken)

/-- The steps of a word. -/
def ofWord (next : Option String) (switch : Switch α) (value : Option String) : Sighting α :=
  match value with
  | some value =>
    if switch.takesValue then .ok ([.set switch.meaning (some value)], false)
    else .error (.valueIgnored switch.name value)
  | none =>
    if switch.takesValue then setByNext switch next else .ok ([.set switch.meaning none], false)

/-- The steps of an argument that is no operand. -/
def ofSwitch (switches : List (Switch α)) (next : Option String) (argument : Argument α) :
    Sighting α :=
  match argument.role with
  | .letter switch behind => ofLetter switches next switch behind
  | .word switch value => ofWord next switch value
  | _ => .ok ([.unknown argument.text], false)

/-- The steps of some arguments. Of a double dash at the operand nothing is kept, unless the operand
takes everything behind it as well. -/
def ofArguments (switches : List (Switch α)) : Operands → List (Argument α) → List (Step α)
  | _, [] => []
  | .everything, ⟨text, .operand⟩ :: rest => [.operands (text :: rest.map Argument.text)]
  | .everything, ⟨text, .separator⟩ :: next :: rest =>
    [.operands (text :: next.text :: rest.map Argument.text)]
  | .single, ⟨text, .operand⟩ :: ⟨_, .separator⟩ :: rest =>
    .operands [text] :: ofArguments switches .nothing rest
  | .single, ⟨text, .operand⟩ :: rest => .operands [text] :: ofArguments switches .nothing rest
  | .single, ⟨_, .separator⟩ :: next :: rest =>
    .operands [next.text] :: ofArguments switches .nothing rest
  | wanted, argument :: rest =>
    match ofSwitch switches (Argument.firstOperand? rest) argument with
    | .error problem => [.fault problem]
    | .ok (steps, taken) =>
      match taken, rest with
      | true, _ :: rest => steps ++ ofArguments switches wanted rest
      | _, rest => steps ++ ofArguments switches wanted rest

end Step

end Minifier
