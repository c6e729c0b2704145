import Minifier.Kind
import Minifier.RuleSet.Group

/-!
# Rule sets

A rule set says which files of a framework are kept, how they are minified and cleaned, and how they
are put together. Its lists of patterns can be replaced by `Overrides`.
-/

set_option autoImplicit false

namespace Minifier

/-- The rules of one framework. -/
structure RuleSet where
  name : String
  including : List Pattern := []
  excluding : List Pattern := []
  cleanup : List Pattern := []
  groups : List Group := []
  kind : Kind := .php
  extensions : List String := [".php"]
  stripPrefix : Option Pattern := none
  headerTemplate : Option String := none
  combinedName : String := "combined.min.txt"
  deriving DecidableEq, Repr

/-- Lists of patterns that replace those of a rule set; a list that is absent replaces nothing. -/
structure Overrides where
  including : Option (List String) := none
  excluding : Option (List String) := none
  cleanup : Option (List String) := none
  groups : Option (List (String × String)) := none
  deriving DecidableEq, Repr

namespace RuleSet

/-- Compiles a list that replaces another one. -/
def replaced {α β : Type} (compile : α → ExceptT Pattern.Fault Logged β) (old : β) :
    Option α → ExceptT Pattern.Fault Logged β
  | none => pure old
  | some sources => compile sources

/-- A rule set whose lists are replaced. -/
def override (rules : RuleSet) (changes : Overrides) : ExceptT Pattern.Fault Logged RuleSet := do
  let including ← replaced Pattern.compileAll rules.including changes.including
  let excluding ← replaced Pattern.compileAll rules.excluding changes.excluding
  let cleanup ← replaced Pattern.compileAll rules.cleanup changes.cleanup
  let groups ← replaced Group.compileAll rules.groups changes.groups
  return { rules with including, excluding, cleanup, groups }

end RuleSet

end Minifier
