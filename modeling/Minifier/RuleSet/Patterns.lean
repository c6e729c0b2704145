import Minifier.Log
import Minifier.Pattern
import Minifier.Text.Quoted

/-!
# Lists of patterns

The patterns of a list are compiled one by one. A malformed one is reported and left out; any other
fault ends the work.
-/

set_option autoImplicit false

namespace Minifier

namespace Pattern

/-- The name of the logger that selection reports to. -/
def rulesLogger : String :=
  "rules"

/-- Compiles a pattern of a list: `none` for a malformed one, which is reported. -/
def compileListed (source : String) : ExceptT Fault Logged (Option Pattern) :=
  match compile source with
  | .ok pattern => pure (some pattern)
  | .error .malformed => do
    Logged.tell .warning rulesLogger
      ("Ignoring malformed pattern " ++ quoted source ++ ": " ++ Fault.malformed.message)
    return none
  | .error fault => throw fault

/-- Compiles the patterns of a list, in order and without the malformed ones. -/
def compileAll : List String → ExceptT Fault Logged (List Pattern)
  | [] => pure []
  | source :: rest => do
    let first? ← compileListed source
    let others ← compileAll rest
    return first?.toList ++ others

end Pattern

end Minifier
