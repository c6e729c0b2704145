import Minifier.RuleSet.Laravel
import Minifier.Text.Case

/-!
# Built-in rule sets

Rule sets are looked up by name, in any letter case.
-/

set_option autoImplicit false

namespace Minifier

/-- A name that no built-in rule set has. -/
structure UnknownRuleSet where
  name : String
  deriving DecidableEq, Repr

namespace RuleSet

/-- The built-in rule sets, in the order of their names. -/
def builtIn : List RuleSet :=
  [Laravel.rules]

/-- The built-in rule set of a given name. -/
def named (name : String) : Except UnknownRuleSet RuleSet :=
  match builtIn.find? fun rules => rules.name == lowerCase name with
  | some rules => .ok rules
  | none => .error ⟨name⟩

end RuleSet

/-- The wording of the error, which lists the names that there are. -/
def UnknownRuleSet.message (unknown : UnknownRuleSet) : String :=
  "Unknown framework rule set '" ++ unknown.name ++ "' (available: " ++
    ", ".intercalate (RuleSet.builtIn.map RuleSet.name) ++ ")"

end Minifier
