import Minifier.Call.Body
import Minifier.Run.Flow

/-!
# Calls over a network

The program as it is called over a network: it minifies texts and does runs. A call that nobody is
there for, that has a faulty body or that fails for a reason of the program's own is refused with a
status; any other failure ends the service's work on the call. Main definition: `Call.answer`.
-/

set_option autoImplicit false

namespace Minifier

/-- A call of the service. -/
structure Call where
  method : String
  path : String
  body : String
  deriving DecidableEq, Repr

/-- The answer to a call. -/
inductive Reply where
  | healthy
  | minified (kind : Kind) (content minified : Text)
  | processed (summary : Summary)
  | invalid (complaints : List Complaint)
  | refused (status : Nat) (detail : String)
  deriving Repr

/-- The status of an answer. -/
def Reply.status : Reply → Nat
  | .invalid _ => 422
  | .refused status _ => status
  | _ => 200

/-- The pages of the service. -/
inductive Page where
  | health
  | minify
  | process
  deriving DecidableEq, Repr

namespace Page

/-- All pages. -/
def all : List Page :=
  [.health, .minify, .process]

/-- The path of a page. -/
def path : Page → String
  | .health => "/health"
  | .minify => "/minify"
  | .process => "/process"

/-- The method of the calls that a page answers. -/
def method : Page → String
  | .health => "GET"
  | .minify => "POST"
  | .process => "POST"

/-- The page at a path. Slashes at its end do not count, and a query behind it neither. -/
def at? (path : String) : Option Page :=
  let plain := path.toList.takeWhile fun c => c != '?' && c != '#'
  let names := plain.reverse.dropWhile (· == '/')
  all.find? fun page => page.path.toList == names.reverse

end Page

namespace Call

/-! ## Bodies -/

/-- The value of a body, or the answer to a body that is no value. -/
def bodyOf (text : String) : Except Reply Json :=
  if text.isEmpty then .error (.invalid [⟨[Body.root], .missing, .null⟩])
  else
    match Json.parse text with
    | .ok value => .ok value
    | .error .malformed => .error (.invalid [⟨[Body.root], .notJson, .obj []⟩])
    | .error _ => .error (.refused 400 "There was an error parsing the body")

/-- The answer to a body with something wrong in it. An answer cannot quote a number that is not
finite. -/
def complaintReply (complaints : List Complaint) : Reply :=
  if complaints.any fun complaint => Body.hasNotFinite complaint.value then
    .refused 400 "Out of range float values are not JSON compliant"
  else .invalid complaints

/-- What a body asks for, by a reader of its members. -/
def readBody {α : Type} (read : Json → Checked α) (text : String) : Except Reply α := do
  let value ← bodyOf text
  (Body.object value >>= read).mapError complaintReply

/-- The kind and the text to minify. -/
def minifyRequest (body : Json) : Checked (String × String) :=
  Checked.both (Body.requiredText body "kind") (Body.requiredText body "text")

/-- What a run is asked to do. -/
structure ProcessRequest where
  source : String
  output : Option String
  combine : Bool
  framework : Option String
  deriving DecidableEq, Repr

/-- The request for a run. -/
def processRequest (body : Json) : Checked ProcessRequest :=
  (Checked.both (Body.requiredText body "source")
    (Checked.both (Body.optionalText body "output")
      (Checked.both (Body.truth body "combine") (Body.optionalText body "framework")))).map
    fun (source, output, combine, framework) => { source, output, combine, framework }

/-! ## Pages -/

/-- Minifies a text. -/
def minifyText (kind text : String) : Reply :=
  match Kind.resolve kind with
  | .error unknown => .refused 400 unknown.message
  | .ok kind =>
    let text := Text.ofString text
    .minified kind text (minify kind text)

/-- Does a run whose source has to be there. -/
def runRequest (request : ProcessRequest) : Job Reply := do
  let source ← Job.expandHome (Path.ofString request.source)
  if !(← Job.isThere source) then
    return .refused 404 ("Source not found: " ++ request.source)
  let summary ← Run.process {
    source
    output := request.output.map Path.ofString
    combine := request.combine
    framework := request.framework }
  return .processed summary

/-- The status that a failure is answered with, if it is answered at all. -/
def statusOf? : Nature → Option Nat
  | .missingFile => some 404
  | .settings => some 400
  | .value => some 400
  | .encoding => some 400
  | .runtime => some 400
  | _ => none

/-- Answers a failure of a job, if it is one that is answered. -/
def answering (job : Job Reply) : Job Reply := do
  match (← Job.attempt job : Except Failure Reply) with
  | .ok reply => return reply
  | .error failure =>
    match statusOf? failure.nature with
    | some status => return .refused status (failure.message?.getD "")
    | none => throw failure

/-- Answers a call of a page by its method. -/
def visit (page : Page) (body : String) : Job Reply :=
  match page with
  | .health => return .healthy
  | .minify =>
    return match readBody minifyRequest body with
      | .ok (kind, text) => minifyText kind text
      | .error reply => reply
  | .process =>
    match readBody processRequest body with
    | .ok request => answering (runRequest request)
    | .error reply => return reply

/-- Answers a call. -/
def answer (call : Call) : Job Reply :=
  match Page.at? call.path with
  | none => return .refused 404 "Not Found"
  | some page =>
    if call.method = page.method then visit page call.body
    else return .refused 405 "Method Not Allowed"

end Call

end Minifier
