import Minifier.Arguments.Step
import Minifier.Decimal.Integer
import Minifier.RuleSet.BuiltIn

/-!
# Invocations

What the arguments of the program ask for: to minify, or to serve. The switches in front of the name
of a command belong to the program, those behind it to the command. Main definition:
`Invocation.ofArguments`.
-/

set_option autoImplicit false

namespace Minifier

/-- How to minify. -/
structure MinifyOptions where
  source : String
  combine : Bool := false
  output : Option String := none
  framework : Option String := none
  config : Option String := none
  noProgress : Bool := false
  verbose : Bool := false
  deriving DecidableEq, Repr

/-- Where a service is reached: a host, and the number under which it listens there. -/
structure Address where
  host : String := "127.0.0.1"
  number : Int := 8000
  deriving DecidableEq, Repr

/-- The text of an address. -/
def Address.text (address : Address) : String :=
  address.host ++ ":" ++ toString address.number

/-- How to serve. -/
structure ServeOptions where
  address : Address := {}
  verbose : Bool := false
  deriving DecidableEq, Repr

/-- What the program is asked to do. -/
inductive Invocation where
  | minify (options : MinifyOptions)
  | serve (options : ServeOptions)
  deriving DecidableEq, Repr

/-- Why arguments do not lead to a command: help is asked for, or they are at fault. The command
that they are meant for is given by its full name. -/
inductive Halt where
  | help (command : String)
  | fault (command : String) (fault : ArgumentFault)
  deriving DecidableEq, Repr

/-- The line that tells of a fault in the arguments for a command. -/
def ArgumentFault.line (command : String) (fault : ArgumentFault) : String :=
  command ++ ": error: " ++ fault.message

namespace Invocation

/-- The name of the program. -/
def program : String :=
  "fileminifier"

/-- The names of the commands. -/
def commands : List String :=
  ["minify", "serve"]

/-- The full name of a command. -/
def fullName (command : String) : String :=
  program ++ " " ++ command

/-! ## Minifying -/

/-- The switches of the command that minifies. -/
inductive MinifySwitch where
  | help
  | verbose
  | combine
  | output
  | laravel
  | framework
  | config
  | noProgress
  deriving DecidableEq, Repr

/-- The switch that stands for the one framework with a letter of its own. -/
def laravelSwitch : Switch MinifySwitch :=
  { spellings := ["-l", "--laravel"], meaning := .laravel }

/-- The switch that names a framework. -/
def frameworkSwitch : Switch MinifySwitch :=
  { spellings := ["--framework"], takesValue := true, meaning := .framework }

/-- The switches of the command that minifies, in the order in which they are listed. -/
def minifySwitches : List (Switch MinifySwitch) := [
  { spellings := ["-h", "--help"], meaning := .help },
  { spellings := ["-v", "--verbose"], meaning := .verbose },
  { spellings := ["-c", "--combine"], meaning := .combine },
  { spellings := ["-o", "--output"], takesValue := true, meaning := .output },
  laravelSwitch,
  frameworkSwitch,
  { spellings := ["--config"], takesValue := true, meaning := .config },
  { spellings := ["--no-progress"], meaning := .noProgress }]

/-- What has been read so far of how to minify. The two switches for a framework exclude each other,
so it is kept which of them have been seen. -/
structure MinifyDraft where
  options : MinifyOptions
  hasSource : Bool := false
  byLetter : Bool := false
  byName : Bool := false
  unknown : List String := []

/-- Takes a step that has a switch of its own. -/
def MinifyDraft.set (draft : MinifyDraft) (switch : MinifySwitch) (value : Option String) :
    Except Halt MinifyDraft :=
  let options := draft.options
  let fail (problem : ArgumentFault) : Except Halt MinifyDraft :=
    .error (.fault (fullName "minify") problem)
  match switch with
  | .help => .error (.help (fullName "minify"))
  | .verbose => .ok { draft with options := { options with verbose := true } }
  | .combine => .ok { draft with options := { options with combine := true } }
  | .output => .ok { draft with options := { options with output := value } }
  | .config => .ok { draft with options := { options with config := value } }
  | .noProgress => .ok { draft with options := { options with noProgress := true } }
  | .laravel =>
    if draft.byName then fail (.conflict laravelSwitch.name frameworkSwitch.name)
    else
      .ok { draft with byLetter := true, options := { options with framework := some "laravel" } }
  | .framework =>
    let choices := RuleSet.builtIn.map RuleSet.name
    let name := value.getD ""
    if !choices.contains name then fail (.notAChoice frameworkSwitch.name name choices)
    else if draft.byLetter then fail (.conflict frameworkSwitch.name laravelSwitch.name)
    else .ok { draft with byName := true, options := { options with framework := some name } }

/-- Takes a step in reading how to minify. -/
def MinifyDraft.take (draft : MinifyDraft) : Step MinifySwitch → Except Halt MinifyDraft
  | .set switch value => draft.set switch value
  | .operands texts =>
    .ok { draft with
      hasSource := true, options := { draft.options with source := texts.headD "" } }
  | .unknown text => .ok { draft with unknown := draft.unknown ++ [text] }
  | .fault problem => .error (.fault (fullName "minify") problem)

/-- How to minify, and the arguments that are not known. -/
def minifyOptions (texts : List String) : Except Halt (MinifyOptions × List String) := do
  let arguments ← (Argument.ofTexts minifySwitches texts).mapError (.fault (fullName "minify"))
  let draft ← (Step.ofArguments minifySwitches .single arguments).foldlM MinifyDraft.take
    { options := { source := "" } }
  if !draft.hasSource then throw (.fault (fullName "minify") (.missing "source"))
  return (draft.options, draft.unknown)

/-! ## Serving -/

/-- The switches of the command that serves. -/
inductive ServeSwitch where
  | help
  | verbose
  | host
  | number
  deriving DecidableEq, Repr

/-- The switch that gives the number of an address. -/
def numberSwitch : Switch ServeSwitch :=
  { spellings := ["--port"], takesValue := true, meaning := .number }

/-- The switches of the command that serves, in the order in which they are listed. -/
def serveSwitches : List (Switch ServeSwitch) := [
  { spellings := ["-h", "--help"], meaning := .help },
  { spellings := ["-v", "--verbose"], meaning := .verbose },
  { spellings := ["--host"], takesValue := true, meaning := .host },
  numberSwitch]

/-- What has been read so far of how to serve. -/
structure ServeDraft where
  options : ServeOptions := {}
  unknown : List String := []

/-- Takes a step that has a switch of its own. -/
def ServeDraft.set (draft : ServeDraft) (switch : ServeSwitch) (value : Option String) :
    Except Halt ServeDraft :=
  let text := value.getD ""
  match switch with
  | .help => .error (.help (fullName "serve"))
  | .verbose => .ok { draft with options.verbose := true }
  | .host => .ok { draft with options.address.host := text }
  | .number =>
    match Integer.read 10 text.toList with
    | .ok number => .ok { draft with options.address.number := number }
    | .error _ => .error (.fault (fullName "serve") (.notAnInteger numberSwitch.name text))

/-- Takes a step in reading how to serve. -/
def ServeDraft.take (draft : ServeDraft) : Step ServeSwitch → Except Halt ServeDraft
  | .set switch value => draft.set switch value
  | .operands texts => .ok { draft with unknown := draft.unknown ++ texts }
  | .unknown text => .ok { draft with unknown := draft.unknown ++ [text] }
  | .fault problem => .error (.fault (fullName "serve") problem)

/-- How to serve, and the arguments that are not known. -/
def serveOptions (texts : List String) : Except Halt (ServeOptions × List String) := do
  let arguments ← (Argument.ofTexts serveSwitches texts).mapError (.fault (fullName "serve"))
  let draft ← (Step.ofArguments serveSwitches .nothing arguments).foldlM ServeDraft.take {}
  return (draft.options, draft.unknown)

/-! ## The program -/

/-- The switches of the program. -/
inductive MainSwitch where
  | help
  | verbose
  deriving DecidableEq, Repr

/-- The switches of the program, in the order in which they are listed. -/
def mainSwitches : List (Switch MainSwitch) := [
  { spellings := ["-h", "--help"], meaning := .help },
  { spellings := ["-v", "--verbose"], meaning := .verbose }]

/-- What has been read so far of what the program is asked to do. -/
structure Draft where
  verbose : Bool := false
  invocation : Option Invocation := none
  unknown : List String := []

/-- An invocation that is verbose if the program is told to be. -/
def withVerbose (verbose : Bool) : Invocation → Invocation
  | .minify options => .minify { options with verbose := options.verbose || verbose }
  | .serve options => .serve { options with verbose := options.verbose || verbose }

/-- The invocation of a command with its arguments, and those that are not known. -/
def ofCommand (command : String) (texts : List String) : Except Halt (Invocation × List String) :=
  if command = "minify" then
    (minifyOptions texts).map fun (options, unknown) => (.minify options, unknown)
  else if command = "serve" then
    (serveOptions texts).map fun (options, unknown) => (.serve options, unknown)
  else .error (.fault program (.notAChoice "command" command commands))

/-- Takes a step in reading the arguments of the program. -/
def Draft.take (draft : Draft) : Step MainSwitch → Except Halt Draft
  | .set .help _ => .error (.help program)
  | .set .verbose _ => .ok { draft with verbose := true }
  | .operands texts => do
    let (invocation, unknown) ← ofCommand (texts.headD "") texts.tail
    return { draft with invocation := some invocation, unknown := draft.unknown ++ unknown }
  | .unknown text => .ok { draft with unknown := draft.unknown ++ [text] }
  | .fault problem => .error (.fault program problem)

/-- What the arguments of the program ask for. -/
def ofArguments (texts : List String) : Except Halt Invocation := do
  let arguments ← (Argument.ofTexts mainSwitches texts).mapError (.fault program)
  let draft ← (Step.ofArguments mainSwitches .everything arguments).foldlM Draft.take {}
  match draft.invocation with
  | none => throw (.fault program (.missing "command"))
  | some invocation =>
    if draft.unknown.isEmpty then return withVerbose draft.verbose invocation
    else throw (.fault program (.unknown draft.unknown))

end Invocation

end Minifier
