import Minifier.Log
import Minifier.Minify

/-!
# Minification that keeps what it cannot minify

Where the minification of a text fails, the text is kept as it is and the failure is reported. The
kind may be given by a name that nobody has looked up, and such a name can be none of a kind. The
report needs something to call the text by: a label, or a kind that is given as such.
-/

set_option autoImplicit false

namespace Minifier

/-- A kind as a caller gives it: as such, or by a name that is not looked up. -/
inductive GivenKind where
  | known (kind : Kind)
  | named (name : String)
  deriving DecidableEq, Repr

namespace GivenKind

/-- The kind that is meant. -/
def resolve : GivenKind → Except UnknownKind Kind
  | known kind => .ok kind
  | named name => Kind.resolve name

/-- The name of a kind that is given as such. -/
def name? : GivenKind → Option String
  | known kind => some kind.name
  | named _ => none

end GivenKind

/-- What is done to a text of each kind, or the reason why it fails. -/
def Transforms : Type :=
  Kind → Text → Except String Text

namespace Transforms

/-- The rules of the kinds, which never fail. -/
def rules : Transforms :=
  fun kind text => .ok (minify kind text)

/-- Minifies a text by the transform of a given kind. -/
def minify (transforms : Transforms) (given : GivenKind) (text : Text) : Except String Text := do
  let kind ← given.resolve.mapError UnknownKind.message
  transforms kind text

end Transforms

/-- The name of the logger that failures are reported to. -/
def failureLogger : String :=
  "failsafe"

/-- A failure that cannot be reported, since neither a label nor a kind names the text. -/
structure Nameless where
  deriving DecidableEq, Repr

/-- What a report calls a text: its label unless that is empty, or else its kind. -/
def caption? (given : GivenKind) (label : Option String) : Option String :=
  (label.filter fun label => !label.isEmpty).or given.name?

/-- Reports for which reason a text is kept as it is. -/
def reportFailure (given : GivenKind) (label : Option String) (reason : String) :
    ExceptT Nameless Logged Unit := do
  let some caption := caption? given label | throw ⟨⟩
  Logged.tell .warning failureLogger
    ("Minification failed for " ++ caption ++ " (" ++ reason ++ "); keeping original content")
  Logged.tell .debug failureLogger "Transform failure details"

/-- Minifies a text by the transform of a given kind, or keeps it when this fails. -/
def Transforms.minifyOrKeep (transforms : Transforms) (given : GivenKind) (label : Option String)
    (text : Text) : ExceptT Nameless Logged Text :=
  match transforms.minify given text with
  | .ok minified => pure minified
  | .error reason => do
    reportFailure given label reason
    return text

/-- Minifies by the name of a kind, or keeps a text when there is no such kind. -/
def minifyOrKeep (kind label : String) (text : Text) : ExceptT Nameless Logged Text :=
  Transforms.rules.minifyOrKeep (.named kind) (some label) text

end Minifier
