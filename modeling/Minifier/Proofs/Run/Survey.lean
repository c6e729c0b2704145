import Minifier.Proofs.Run.Effect
import Minifier.Proofs.Run.Flows

/-!
# What a survey finds

A survey only looks: it leaves the disk as it is, and where it writes to and which files it finds is
known from what it can see (`Run.surveyed`, `Run.reads_survey`).
-/

set_option autoImplicit false

namespace Minifier

namespace Run

open Job

/-- The path without links that a path stands for. -/
def resolved (path : Path) (view : View) : Except Failure Path :=
  (view.disk.resolve path).mapError .path

/-- The files of a scan, or `none` when its root is no directory. -/
def filesOf? (scan : Except DiscoveryError (List SourceFile)) :
    Except Failure (Option (List SourceFile)) :=
  match scan with
  | .ok files => .ok (some files)
  | .error (.missing _) => .ok none
  | .error (.notADirectory _) => .ok none
  | .error error => .error (.discovery error)

/-- The files below a directory, or `none` when it is none. -/
def scanned? (source : Path) (suffixes : List String) (skipped : List Path) (view : View) :
    Except Failure (Option (List SourceFile)) :=
  filesOf? (Discovery.sourceFiles view.disk view.exclusions source.toString suffixes
    skipped).run.value

/-- The files to handle, less those that are the output of the run, or the error that ends it. -/
def found (source : Path) (suffixes : List String) (skippedDirectories skippedFiles : List Path)
    (view : View) : Except Failure (Except String (List SourceFile)) := do
  match ← scanned? source suffixes skippedDirectories view with
  | none => return .error (missingSource source)
  | some all =>
    let outputs ← skippedFiles.mapM fun path => resolved path view
    let files ← all.filterM fun file => do return !outputs.contains (← resolved file.path view)
    return if files.isEmpty then .error "No supported files found in directory." else .ok files

/-- The directory beside a source that is written to where none is given. -/
def besideOf (source : Path) (view : View) : Except Failure Path := do
  return (← resolved source view).parent.child outputName

/-- The name of the combined file where none is given. -/
def combinedNameOf (rules : Option RuleSet) (source : Path) (view : View) :
    Except Failure String :=
  match rules with
  | some rules => return rules.combinedName
  | none => do return (← resolved source view).name ++ ".combined.min.js"

/-- Where a run over a directory writes to, and the files that it finds. -/
def surveyed (combine : Bool) (rules : Option RuleSet) (source : Path) (output : Option Path)
    (view : View) : Except Failure (Path × Except String (List SourceFile)) := do
  let source ← (view.disk.expandHome source).mapError .path
  if combine then
    let beside ← besideOf source view
    let output ← match output with
      | some output => pure output
      | none => do pure (beside.child (← combinedNameOf rules source view))
    return (output, ← found source (suffixesOf rules) [beside] [output] view)
  else
    let output ← match output with
      | some output => pure output
      | none => besideOf source view
    return (output, ← found source (suffixesOf rules) [output] [] view)

/-! ## Reading -/

theorem reads_resolve (path : Path) : Reads (resolve path) (resolved path) :=
  reads_ask _

/-- A session that holds the exclusions in force from now on goes by the same ones. -/
theorem reads_holdExclusions : Reads holdExclusions fun view => .ok view.exclusions := by
  intro s hlog
  have hsteady : Steady holdExclusions s (exclusionsOf s) :=
    steady_get_bind ((steady_modify ⟨⟨rfl, rfl, rfl, hlog⟩, rfl⟩).bind fun t hstill =>
      steady_pure hstill.log _)
  refine ⟨fun a ha => ?_, fun a t hgives => ?_⟩
  · cases ha
    exact hsteady
  · rw [(hsteady.unique hgives).1]
    rfl

theorem reads_filesBelow? (source : Path) (suffixes : List String) (skipped : List Path) :
    Reads (filesBelow? source suffixes skipped) (scanned? source suffixes skipped) := by
  have hscan : ∀ exclusions : List Exclusion, Reads (do
      let s ← get
      match ← Job.logged
          (Discovery.sourceFiles s.disk exclusions source.toString suffixes skipped).run with
      | .ok files => return some files
      | .error (.missing _) => return none
      | .error (.notADirectory _) => return none
      | .error error => throw (.discovery error)) fun view =>
        filesOf? (Discovery.sourceFiles view.disk exclusions source.toString suffixes
          skipped).run.value := by
    intro exclusions
    refine reads_get_bind fun s _ => ⟨fun _ => filesOf? (Discovery.sourceFiles s.disk
      exclusions source.toString suffixes skipped).run.value, ?_, rfl⟩
    refine (reads_logged _).bind fun scan => (?_ : Reads _ fun _ => filesOf? scan)
    cases scan with
    | ok files => exact reads_pure _
    | error error =>
      cases error with
      | missing root => exact reads_pure _
      | notADirectory root => exact reads_pure _
      | path error => exact reads_throw _
  exact reads_holdExclusions.bind hscan

theorem reads_findFiles (source : Path) (suffixes : List String) (directories files : List Path) :
    Reads (findFiles source suffixes directories files)
      (found source suffixes directories files) := by
  have htest : ∀ (outputs : List Path) (file : SourceFile),
      Reads (do return !outputs.contains (← Job.resolve file.path)) fun view =>
        (do return !outputs.contains (← resolved file.path view) : Except Failure Bool) :=
    fun outputs file => (reads_resolve file.path).bind fun place => reads_pure _
  have hend : ∀ kept : List SourceFile,
      Reads (if kept.isEmpty then return .error "No supported files found in directory."
        else do
          Job.note .info
            ("Found " ++ toString kept.length ++ " files to process in " ++ source.toString)
          return .ok kept) fun _ =>
        (.ok (if kept.isEmpty then .error "No supported files found in directory." else .ok kept) :
          Except Failure (Except String (List SourceFile))) := by
    intro kept
    split
    · exact reads_pure _
    · exact (reads_note _ _).bind fun _ => reads_pure _
  refine (reads_filesBelow? source suffixes directories).bind fun scan => ?_
  cases scan with
  | none => exact reads_pure _
  | some all =>
    exact (reads_mapM reads_resolve files).bind fun outputs =>
      (reads_filterM (htest outputs) all).bind hend

theorem reads_refuse (message : String) :
    Reads (refuse message) fun _ => .ok { error := some message } :=
  (reads_note _ _).bind fun _ => reads_pure _

theorem reads_directoryBeside (source : Path) : Reads (directoryBeside source) (besideOf source) :=
  (reads_resolve source).bind fun _ => reads_pure _

theorem reads_combinedName (rules : Option RuleSet) (source : Path) :
    Reads (combinedName rules source) (combinedNameOf rules source) := by
  cases rules with
  | none => exact (reads_resolve source).bind fun _ => reads_pure _
  | some rules => exact reads_pure _

/-- What a survey gives is known from what it can see. -/
theorem reads_survey (combine : Bool) (rules : Option RuleSet) (source : Path)
    (output : Option Path) :
    Reads (survey combine rules source output) (surveyed combine rules source output) := by
  -- with the target known, finding the files comes last
  have hfind : ∀ (source target : Path) (directories files : List Path),
      Reads (do return (target, ← findFiles source (suffixesOf rules) directories files))
        fun view => (do
          return (target, ← found source (suffixesOf rules) directories files view) :
            Except Failure (Path × Except String (List SourceFile))) :=
    fun source target directories files =>
      (reads_findFiles source _ directories files).bind fun found => reads_pure _
  have hexpand : Reads (Job.expandHome source)
      fun view => (view.disk.expandHome source).mapError .path := reads_ask _
  cases combine with
  | true =>
    cases output with
    | some output =>
      exact hexpand.bind fun source => (reads_directoryBeside source).bind fun beside =>
        (reads_pure output).bind fun output => hfind source output [beside] [output]
    | none =>
      exact hexpand.bind fun source => (reads_directoryBeside source).bind fun beside =>
        (reads_combinedName rules source).bind fun name =>
          (reads_pure (beside.child name)).bind fun output =>
            hfind source output [beside] [output]
  | false =>
    cases output with
    | some output =>
      exact hexpand.bind fun source =>
        (reads_pure output).bind fun output => hfind source output [output] []
    | none =>
      exact hexpand.bind fun source =>
        (reads_directoryBeside source).bind fun output => hfind source output [output] []

end Run

end Minifier
