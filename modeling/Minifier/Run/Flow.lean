import Minifier.Bundle
import Minifier.RuleSet.Filter
import Minifier.Run.Outcome
import Minifier.Run.Session

/-!
# Runs

A run minifies one file, or the files below a directory, either each into a file of its own or all
into one. Under a rule set only the files that it selects are minified. Main definition:
`Run.process`.
-/

set_option autoImplicit false

namespace Minifier

/-- What a run is asked to do. -/
structure Request where
  source : Path
  output : Option Path := none
  combine : Bool := false
  framework : Option String := none
  deriving DecidableEq, Repr

namespace Run

/-- The name of the directory that is written to where none is given. -/
def outputName : String :=
  "minified"

/-- Ends a run with an error. -/
def refuse (message : String) : Job Summary := do
  Job.note .error message
  return { error := some message }

/-- The directory beside a source that is written to where none is given. -/
def directoryBeside (source : Path) : Job Path := do
  return (← Job.resolve source).parent.child outputName

/-! ## Finding files -/

/-- The exclusions in force: those that the session holds, or else those of its settings. -/
def exclusionsOf (s : Session) : List Exclusion :=
  match s.exclusions with
  | some exclusions => exclusions
  | none =>
    match s.settings with
    | some settings => Exclusion.parseAll settings.excludePaths
    | none => []

/-- The error of a source that is no directory. -/
def missingSource (source : Path) : String :=
  "Source directory not found: " ++ source.toString

/-- The exclusions in force, which the session holds from its first scan on. -/
def holdExclusions : Job (List Exclusion) := do
  let exclusions := exclusionsOf (← get)
  modify fun s => { s with exclusions := some exclusions }
  return exclusions

/-- The files below a directory, or `none` when it is none. -/
def filesBelow? (source : Path) (suffixes : List String) (skipped : List Path) :
    Job (Option (List SourceFile)) := do
  let exclusions ← holdExclusions
  let s ← get
  match ← Job.logged
      (Discovery.sourceFiles s.disk exclusions source.toString suffixes skipped).run with
  | .ok files => return some files
  | .error (.missing _) => return none
  | .error (.notADirectory _) => return none
  | .error error => throw (.discovery error)

/-- The files to handle, less those that are the output of the run, or the error that ends it. -/
def findFiles (source : Path) (suffixes : List String)
    (skippedDirectories skippedFiles : List Path) : Job (Except String (List SourceFile)) := do
  match ← filesBelow? source suffixes skippedDirectories with
  | none => return .error (missingSource source)
  | some found =>
    let outputs ← skippedFiles.mapM Job.resolve
    let files ← found.filterM fun file => do return !outputs.contains (← Job.resolve file.path)
    if files.isEmpty then return .error "No supported files found in directory."
    Job.note .info
      ("Found " ++ toString files.length ++ " files to process in " ++ source.toString)
    return .ok files

/-! ## Handling files -/

/-- Minifies a file by the rules of its kind. -/
def minifyPlainly (file : SourceFile) : Job Outcome := do
  match ← Job.read file.path with
  | none => return .failed
  | some content => return .done content (minify file.kind content)

/-- Minifies a file if a rule set selects it. A file that cannot be read counts as left out. -/
def minifySelected (rules : RuleSet) (file : SourceFile) : Job Outcome := do
  match ← Job.read file.path with
  | none => return .skipped
  | some content =>
    match ← Job.logged (evaluate rules (minify rules.kind) file.relative content) with
    | some minified => return .done content minified
    | none =>
      Job.note .debug
        ("Skipped " ++ file.relative ++ " (not selected by " ++ rules.name ++ " rules)")
      return .skipped

/-- Minifies a file, under a rule set if there is one. -/
def minifyFile (rules : Option RuleSet) (file : SourceFile) : Job Outcome :=
  match rules with
  | some rules => minifySelected rules file
  | none => minifyPlainly file

/-- Writes what a file became to its place below a directory. -/
def deliver (directory : Path) (file : SourceFile) (outcome : Outcome) : Job Outcome := do
  match outcome with
  | .done _ minified =>
    if ← Job.write (directory.join (Path.ofString file.relative)) minified then return outcome
    else return .failed
  | _ => return outcome

/-- Handles files one after another and counts them. -/
def handleAll (handle : SourceFile → Job Outcome) (files : List SourceFile) :
    Job (List (SourceFile × Outcome)) := do
  Job.startMeter files.length
  let outcomes ← files.mapM fun file => do
    let outcome ← handle file
    Job.advance file.path.name
    return (file, outcome)
  Job.finishMeter
  return outcomes

/-- The suffixes of the files that a run handles. -/
def suffixesOf (rules : Option RuleSet) : List String :=
  match rules with
  | some rules => rules.extensions
  | none => Kind.suffixes

/-! ## Runs over a directory, each file by itself -/

/-- The report at the end of a run over a directory. -/
def directoryReport (rules : Option RuleSet) (summary : Summary) (output : Path) : String :=
  match rules with
  | some rules =>
    rules.name ++ ": kept " ++ toString summary.succeeded ++ ", skipped " ++
      toString summary.skipped ++ " of " ++ toString summary.total ++ " files"
  | none =>
    "Minified " ++ toString summary.succeeded ++ " of " ++ toString summary.total ++
      " files into " ++ output.toString

/-- Minifies the files below a directory, each into a file at the same place below the output. -/
def directory (rules : Option RuleSet) (source : Path) (output : Option Path) : Job Summary := do
  let source ← Job.expandHome source
  let output ← match output with
    | some output => pure output
    | none => directoryBeside source
  match ← findFiles source (suffixesOf rules) [output] [] with
  | .error message => refuse message
  | .ok files =>
    let outcomes ← handleAll (fun file => do deliver output file (← minifyFile rules file)) files
    let summary := { Summary.ofOutcomes outcomes with outputPath := some output }
    Job.note .info (directoryReport rules summary output)
    return summary

/-! ## Runs over a directory into one file -/

/-- The name of the combined file where none is given. -/
def combinedName (rules : Option RuleSet) (source : Path) : Job String := do
  match rules with
  | some rules => return rules.combinedName
  | none => return (← Job.resolve source).name ++ ".combined.min.js"

/-- Puts minified files together: by kind, or by the groups of a rule set after its header. -/
def bundle (rules : Option RuleSet) (outcomes : List (SourceFile × Outcome)) : Job Bundle := do
  match rules with
  | none =>
    return Bundle.ofKinds (outcomes.filterMap fun (file, outcome) =>
      outcome.minified?.map fun text => (file.relative, file.kind, text))
  | some rules =>
    match header [] rules (← get).clock with
    | .error missing => throw (.template missing)
    | .ok header =>
      return Bundle.ofGroups rules.groups (Text.ofString header) rules.stripPrefix
        (outcomes.filterMap fun (file, outcome) =>
          outcome.minified?.map fun text => (file.relative, text))

/-- Writes the combined file and completes the summary. -/
def writeCombined (summary : Summary) (output : Path) (text : Text) : Job Summary := do
  if ← Job.write output text then
    Job.note .info
      ("Combined " ++ toString summary.succeeded ++ " files into " ++ output.toString)
    return { summary with outputPath := some output, outputSize := some text.byteSize }
  else
    return { summary with error := some ("Failed to write combined file: " ++ output.toString) }

/-- Minifies the files below a directory into one file. -/
def combined (rules : Option RuleSet) (source : Path) (output : Option Path) : Job Summary := do
  let source ← Job.expandHome source
  let beside ← directoryBeside source
  let output ← match output with
    | some output => pure output
    | none => do pure (beside.child (← combinedName rules source))
  match ← findFiles source (suffixesOf rules) [beside] [output] with
  | .error message => refuse message
  | .ok files =>
    let outcomes ← handleAll (minifyFile rules) files
    let bundle ← bundle rules outcomes
    let counts := bundle.counts.map fun (name, count) => (name, (count : Int))
    writeCombined { Summary.ofOutcomes outcomes with groupCounts := counts } output bundle.text

/-! ## Runs over one file -/

/-- The suffix of a file without its dot, for an error. -/
def shownSuffix (path : Path) : String :=
  let suffix := String.ofList (path.suffix.toList.dropWhile (· == '.'))
  if suffix.isEmpty then "(none)" else suffix

/-- Minifies one file into a directory. -/
def single (source : Path) (output : Option Path) : Job Summary := do
  let source ← Job.expandHome source
  if !(← Job.isFile source) then refuse ("Source file not found: " ++ source.toString)
  else
    match Kind.ofPath? source with
    | none => refuse ("Unsupported file type: " ++ shownSuffix source)
    | some kind =>
      let target := (output.getD (source.parent.child outputName)).child source.name
      match ← Job.read source with
      | none =>
        return { total := 1, error := some ("Failed to read source file: " ++ source.toString) }
      | some content =>
        let minified := minify kind content
        if ← Job.write target minified then
          Job.note .info
            ("Minified " ++ source.name ++ " (" ++ toString content.byteSize ++ " -> " ++
              toString minified.byteSize ++ " bytes)")
          return {
            total := 1, succeeded := 1
            bytesSaved := bytesSaved content.byteSize minified.byteSize
            outputPath := some target, outputSize := some minified.byteSize }
        else
          return {
            total := 1, error := some ("Failed to write minified file: " ++ target.toString) }

/-! ## Dispatch -/

/-- The settings of the session; they are loaded once, from beside the source. -/
def settingsFor (source : Path) : Job Settings := do
  match (← get).settings with
  | some settings => return settings
  | none =>
    let place := if ← Job.isDirectory source then source else source.parent
    let settings ← Job.ask fun disk => Settings.load disk place
    modify fun s => { s with settings := some settings }
    return settings

/-- The rule set that a request names, if it names one. -/
def rulesOf (settings : Settings) (framework : Option String) : Job (Option RuleSet) := do
  match framework with
  | none => return none
  | some name =>
    if name.isEmpty then return none
    else return some (← Job.loggedTry id (settings.ruleSet name))

/-- Does what a request asks for. -/
def process (request : Request) : Job Summary := do
  let source ← Job.expandHome request.source
  let settings ← settingsFor source
  let output ← match request.output with
    | some output => do pure (some (← Job.expandHome output))
    | none => pure settings.output
  let rules ← rulesOf settings request.framework
  let isDirectory ← if rules.isSome then pure true else Job.isDirectory source
  if !isDirectory then single source output
  else if request.combine then combined rules source output
  else directory rules source output

end Run

end Minifier
