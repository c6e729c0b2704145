import Minifier.Discovery
import Minifier.Summary

/-!
# Outcomes

What became of each file of a run, and the counters that follow from it.
-/

set_option autoImplicit false

namespace Minifier

/-- What became of a file: it was minified, left out by the rules, or it could not be handled. -/
inductive Outcome where
  | done (content minified : Text)
  | skipped
  | failed
  deriving DecidableEq, Repr

namespace Outcome

/-- Whether a file was minified. -/
def isDone : Outcome → Bool
  | .done _ _ => true
  | _ => false

/-- Whether a file was left out. -/
def isSkipped : Outcome → Bool
  | .skipped => true
  | _ => false

/-- The bytes saved on a file. -/
def saved : Outcome → Int
  | .done content minified => bytesSaved content.byteSize minified.byteSize
  | _ => 0

/-- The minified text of a file. -/
def minified? : Outcome → Option Text
  | .done _ minified => some minified
  | _ => none

end Outcome

/-- The counters of a run. -/
def Summary.ofOutcomes (outcomes : List (SourceFile × Outcome)) : Summary where
  total := outcomes.length
  succeeded := outcomes.countP fun (_, outcome) => outcome.isDone
  skipped := outcomes.countP fun (_, outcome) => outcome.isSkipped
  bytesSaved := outcomes.foldr (fun (_, outcome) saved => outcome.saved + saved) 0

end Minifier
