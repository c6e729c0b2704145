import Minifier.Pattern.Matcher
import Minifier.Pattern.Reader

/-!
# Patterns

A pattern is a text in the language of regular expressions, together with what it means. Compiling
may fail, with a `Pattern.Fault`; a compiled pattern can be searched for and its matches can be
deleted. Main definitions: `Pattern.compile`, `Pattern.isFoundIn`, `Pattern.deleteAll`.
-/

set_option autoImplicit false

namespace Minifier

/-- A compiled pattern with its source. -/
structure Pattern where
  source : String
  node : Pattern.Node
  deriving DecidableEq, Repr

namespace Pattern

/-- The widths of the groups of a form, added to those of the groups before it. -/
def Form.groupWidths (known : List (Nat × Nat × Nat)) : Form → List (Nat × Nat × Nat)
  | .seq first second => second.groupWidths (first.groupWidths known)
  | .alt first second => second.groupWidths (first.groupWidths known)
  | .group index _ _ body =>
    let known := body.groupWidths known
    match index with
    | some index => (index, body.width known) :: known
    | none => known
  | .atomic body => body.groupWidths known
  | .look _ _ body => body.groupWidths known
  | .conditional _ yes no => no.groupWidths (yes.groupWidths known)
  | .repeated _ _ _ body => body.groupWidths known
  | _ => known

/-- Compiles a pattern. -/
def compile (source : String) : Except Fault Pattern := do
  let (form, modes) ← read source
  let node ← form.resolve (form.groupWidths []) modes
  return ⟨source, node⟩

/-- Whether a pattern is found anywhere in a text. -/
def isFoundIn (pattern : Pattern) (text : Text) : Bool :=
  (pattern.node.find? text).isSome

/-- Deletes every match of a pattern. -/
def deleteAll (pattern : Pattern) (text : Text) : Text :=
  pattern.node.deleteAll text

/-- Deletes the first match of a pattern. -/
def deleteFirst (pattern : Pattern) (text : Text) : Text :=
  pattern.node.deleteFirst text

/-- The wording of a fault. -/
def Fault.message : Fault → String
  | .malformed => "error"
  | .repeatTooLarge => "the repetition number is too large"
  | .numeralTooLong digits =>
    "Exceeds the limit (4300 digits) for integer string conversion: value has " ++
      toString digits ++
      " digits; use sys.set_int_max_str_digits() to increase the limit"
  | .mixedAlphabets => "ASCII and UNICODE flags are incompatible"

end Pattern

end Minifier
