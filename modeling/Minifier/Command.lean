import Minifier.Arguments.Invocation
import Minifier.ByteSize
import Minifier.Run.Flow

/-!
# The command line

The program as it is called from a command line: it reads its arguments, does what they ask for,
prints a summary and ends with a code. Main definition: `Command.run`.
-/

set_option autoImplicit false

namespace Minifier

/-- How the program ends: well, with a code and a message, or by serving at an address. -/
inductive Ending where
  | finished
  | refused (code : Nat) (message : String)
  | serving (address : Address)
  deriving DecidableEq, Repr

namespace Command

/-- The number of cells of the progress bar. -/
def barWidth : Int :=
  50

/-- The code of a run that has failed. -/
def failureCode : Nat :=
  1

/-- The code of arguments that are at fault. -/
def usageCode : Nat :=
  2

/-- Ends the program after a run that has failed. -/
def refuse (message : String) : Job Ending :=
  return .refused failureCode (message ++ "\n")

/-! ## Help -/

/-- What is printed when help is asked for: the switches of the command. -/
def helpText (command : String) : String :=
  let names :=
    if command = Invocation.fullName "minify" then Invocation.minifySwitches.map Switch.name
    else if command = Invocation.fullName "serve" then Invocation.serveSwitches.map Switch.name
    else Invocation.mainSwitches.map Switch.name
  let operands :=
    if command = Invocation.fullName "minify" then ["source"]
    else if command = Invocation.fullName "serve" then []
    else ["|".intercalate Invocation.commands]
  let switches := names.map fun name => "[" ++ name ++ "]"
  "usage: " ++ " ".intercalate (command :: switches ++ operands) ++ "\n"

/-! ## The summary -/

/-- The heading of a summary. -/
def heading (options : MinifyOptions) : String :=
  match options.framework with
  | some framework =>
    capitalize framework ++ (if options.combine then " Combination" else " Minification") ++
      " Summary:"
  | none => if options.combine then "Combination Summary:" else "Minification Summary:"

/-- A path as it is shown: from the working directory on if it lies there. -/
def shownPath (disk : Disk) (path : Path) : String :=
  match path.relativeTo? ⟨.root, disk.workingDirectory⟩ with
  | some inside => inside.toString
  | none => path.toString

/-- The lines of a summary that tell how many files there were. -/
def countLines (options : MinifyOptions) (summary : Summary) : List String :=
  let done := if options.combine then "combined" else "minified"
  let skipped :=
    if options.framework.isSome then ["Skipped (excluded): " ++ toString summary.skipped] else []
  ["", heading options, "Total files found: " ++ toString summary.total,
    "Successfully " ++ done ++ ": " ++ toString summary.succeeded] ++ skipped ++
    ["Failed: " ++ toString summary.failed]

/-- The lines of a summary that tell how large the files are. -/
def sizeLines (options : MinifyOptions) (summary : Summary) :
    Except SizeTooLarge (List String) := do
  let saved := "Total space saved: " ++ (← byteSizeText summary.bytesSaved)
  match summary.outputSize with
  | some size =>
    if options.combine then return [saved, "Combined file size: " ++ (← byteSizeText size)]
    else return [saved]
  | none => return [saved]

/-- The line that says where the output is. -/
def placeLine (path : Path) : Job String := do
  let label := if ← Job.isDirectory path then "Output directory: " else "Output file: "
  return label ++ shownPath (← get).disk path

/-- Prints some lines. -/
def printLines (lines : List String) : Job Unit :=
  lines.forM fun line => Job.print (line ++ "\n")

/-- Prints a summary. -/
def printSummary (options : MinifyOptions) (summary : Summary) : Job Unit := do
  printLines (countLines options summary)
  match sizeLines options summary with
  | .ok lines => printLines lines
  | .error error => throw (.size error)
  match summary.outputPath with
  | some path => printLines [← placeLine path]
  | none => return ()

/-! ## Commands -/

/-- The settings for a source: of the file that is named, or of the directory of the source. -/
def settingsFor (source : Path) (named : Option String) : Job Settings := do
  let place ← match named with
    | some name => pure (Path.ofString name)
    | none => do if ← Job.isDirectory source then pure source else pure source.parent
  Job.ask fun disk => Settings.load disk place

/-- How the program ends after a run. -/
def conclude (options : MinifyOptions) (summary : Summary) : Job Ending := do
  if summary.error.isSome && summary.total = 0 then refuse (summary.error.getD "")
  else
    printSummary options summary
    if summary.ok then return .finished
    else refuse (summary.error.getD "Some files could not be minified.")

/-- Minifies under given settings. -/
def minifyUnder (options : MinifyOptions) (source : Path) (settings : Settings) : Job Ending := do
  Job.configureLog options.verbose settings.logFile
  modify fun s => { s with
    settings := some settings
    barWidth := if options.noProgress then none else some barWidth }
  let summary ← Run.process {
    source
    output := options.output.map Path.ofString
    combine := options.combine
    framework := options.framework }
  conclude options summary

/-- Minifies a file or a directory. Faulty settings end the program before it starts. -/
def minify (options : MinifyOptions) : Job Ending := do
  let source ← Job.expandHome (Path.ofString options.source)
  match (← Job.attempt (settingsFor source options.config) : Except Failure Settings) with
  | .ok settings => minifyUnder options source settings
  | .error failure =>
    if failure.nature = .settings then
      refuse (Invocation.program ++ ": " ++ failure.message?.getD "")
    else throw failure

/-- Gets ready to serve. -/
def serve (options : ServeOptions) : Job Ending := do
  Job.configureLog options.verbose none
  return .serving options.address

/-- Does what an invocation asks for. -/
def perform : Invocation → Job Ending
  | .minify options => minify options
  | .serve options => serve options

/-- Ends the program when its arguments lead to no command. -/
def halt (reason : Halt) : Job Ending := do
  match reason with
  | .help command =>
    Job.print (helpText command)
    return .finished
  | .fault command problem => return .refused usageCode (problem.line command ++ "\n")

/-- Runs the program with its arguments. -/
def run (arguments : List String) : Job Ending :=
  match Invocation.ofArguments arguments with
  | .ok invocation => perform invocation
  | .error reason => halt reason

end Command

end Minifier
