import Minifier.Path

/-!
# Summaries

The counters that a run reports when it is over.
-/

set_option autoImplicit false

namespace Minifier

/-- What a run has done. -/
structure Summary where
  total : Int := 0
  succeeded : Int := 0
  skipped : Int := 0
  bytesSaved : Int := 0
  outputPath : Option Path := none
  outputSize : Option Int := none
  groupCounts : List (String × Int) := []
  error : Option String := none
  deriving DecidableEq, Repr

namespace Summary

/-- The number of files that were neither minified nor skipped. -/
def failed (summary : Summary) : Int :=
  summary.total - summary.succeeded - summary.skipped

/-- Whether there were files and every one was minified or skipped. -/
def ok (summary : Summary) : Bool :=
  summary.error.isNone && 0 < summary.total && summary.failed = 0

end Summary

/-- The bytes that minification saves on a file. -/
def bytesSaved (before after : Int) : Int :=
  before - after

end Minifier
