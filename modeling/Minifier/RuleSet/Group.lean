import Minifier.RuleSet.Patterns

/-!
# Groups

A group is a name with a pattern that claims paths. Of several groups the first one whose pattern is
found in a path claims it; `Group.classify` gives the name of the group, or `otherGroup`.
-/

set_option autoImplicit false

namespace Minifier

/-- A named group and the pattern that claims paths for it. -/
structure Group where
  name : String
  pattern : Pattern
  deriving DecidableEq, Repr

/-- The name of the group of all paths that no other group claims. -/
def otherGroup : String :=
  "other"

/-- A relative path with slashes in the place of backslashes. -/
def slashed (path : String) : String :=
  String.ofList (path.toList.map fun c => if c = '\\' then '/' else c)

/-- Whether a pattern is found in a path with its slashes put right. -/
def Pattern.finds (pattern : Pattern) (path : String) : Bool :=
  pattern.isFoundIn (Text.ofString (slashed path))

namespace Group

/-- Compiles groups, in order and without those whose pattern is malformed. -/
def compileAll : List (String × String) → ExceptT Pattern.Fault Logged (List Group)
  | [] => pure []
  | (name, source) :: rest => do
    let first? ← Pattern.compileListed source
    let others ← compileAll rest
    return (first?.map (Group.mk name)).toList ++ others

/-- The name of the group that claims a path. -/
def classify (groups : List Group) (path : String) : String :=
  match groups.find? fun group => group.pattern.finds path with
  | some group => group.name
  | none => otherGroup

end Group

end Minifier
