import Minifier.Minify
import Minifier.RuleSet.Basic

/-!
# Filtering

A path is selected when a pattern that includes is found in it and no pattern that excludes is.
Main definitions: `select` and `cleaned` for compiled patterns, `selectBy` and `cleanedBy` for
patterns as written, `evaluate`.
-/

set_option autoImplicit false

namespace Minifier

/-- The record of an excluded path. -/
def excludedMessage (path : String) (pattern : Pattern) : String :=
  "Excluded " ++ path ++ " by " ++ pattern.source

/-- Whether no pattern excludes a path; the first one that does is reported. -/
def survives (path : String) (excluding : List Pattern) : Logged Bool :=
  match excluding.find? fun pattern => pattern.finds path with
  | none => pure true
  | some pattern => do
    Logged.tell .debug Pattern.rulesLogger (excludedMessage (slashed path) pattern)
    return false

/-- Whether a path is selected by compiled patterns. -/
def select (path : String) (including excluding : List Pattern) : Logged Bool :=
  if including.any fun pattern => pattern.finds path then survives path excluding else pure false

/-- Whether a path is selected by patterns as written. Those that exclude are compiled only for an
included path. -/
def selectBy (path : String) (including excluding : List String) :
    ExceptT Pattern.Fault Logged Bool := do
  let included ← Pattern.compileAll including
  if included.any fun pattern => pattern.finds path then
    let excluded ← Pattern.compileAll excluding
    survives path excluded
  else
    return false

/-- A text without the matches of the given patterns, deleted one pattern after another. -/
def cleaned (patterns : List Pattern) (text : Text) : Text :=
  patterns.foldl (fun text pattern => pattern.deleteAll text) text

/-- A text without the matches of patterns as written. -/
def cleanedBy (patterns : List String) (text : Text) : ExceptT Pattern.Fault Logged Text := do
  return cleaned (← Pattern.compileAll patterns) text

/-- What a rule set makes of one file: its minified and cleaned text, or `none` when the file is not
selected. -/
def evaluate (rules : RuleSet) (transform : Text → Text) (path : String) (text : Text) :
    Logged (Option Text) := do
  if ← select path rules.including rules.excluding then
    return some (cleaned rules.cleanup (transform text))
  else
    return none

end Minifier
