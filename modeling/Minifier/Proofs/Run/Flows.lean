import Minifier.Proofs.Bundle
import Minifier.Proofs.Run.Turns

/-!
# The stages of a run over a directory

A run over a directory first looks for files (`survey`), then handles them one after another, each
in the same way (`handling`), and in the end writes what belongs to all of them (`conclude`). This
holds with and without a rule set, and for files each by itself as for all in one
(`overDirectory_eq_stages`). A run that gives a summary has therefore found no files, or its
counters are those of the outcomes (`Counts`, `exists_outcomes_of_gives`).
-/

set_option autoImplicit false

namespace Minifier

namespace Run

open Job

/-! ## Stages -/

/-- A run over a directory, into one file or each file by itself. -/
def overDirectory (combine : Bool) (rules : Option RuleSet) (source : Path)
    (output : Option Path) : Job Summary :=
  if combine then combined rules source output else directory rules source output

/-- Where a run over a directory writes to, and the files that it finds. -/
def survey (combine : Bool) (rules : Option RuleSet) (source : Path) (output : Option Path) :
    Job (Path × Except String (List SourceFile)) := do
  let source ← Job.expandHome source
  if combine then
    let beside ← directoryBeside source
    let output ← match output with
      | some output => pure output
      | none => do pure (beside.child (← combinedName rules source))
    return (output, ← findFiles source (suffixesOf rules) [beside] [output])
  else
    let output ← match output with
      | some output => pure output
      | none => directoryBeside source
    return (output, ← findFiles source (suffixesOf rules) [output] [])

/-- What a run over a directory does with a file. -/
def handling (combine : Bool) (rules : Option RuleSet) (output : Path) (file : SourceFile) :
    Job Outcome :=
  if combine then minifyFile rules file else do deliver output file (← minifyFile rules file)

/-- What a run over a directory does when all files are handled. -/
def conclude (combine : Bool) (rules : Option RuleSet) (output : Path)
    (outcomes : List (SourceFile × Outcome)) : Job Summary :=
  if combine then do
    let bundle ← bundle rules outcomes
    let counts := bundle.counts.map fun (name, count) => (name, (count : Int))
    writeCombined { Summary.ofOutcomes outcomes with groupCounts := counts } output bundle.text
  else do
    let summary := { Summary.ofOutcomes outcomes with outputPath := some output }
    Job.note .info (directoryReport rules summary output)
    return summary

/-- The three stages, one after the other. -/
def stages (combine : Bool) (rules : Option RuleSet) (source : Path) (output : Option Path) :
    Job Summary := do
  let (target, found) ← survey combine rules source output
  match found with
  | .error message => refuse message
  | .ok files =>
    let outcomes ← handleAll (handling combine rules target) files
    conclude combine rules target outcomes

theorem overDirectory_eq_stages (combine : Bool) (rules : Option RuleSet) (source : Path)
    (output : Option Path) :
    overDirectory combine rules source output = stages combine rules source output := by
  -- both sides take the same steps; they are nested in another way
  cases combine with
  | false =>
    simp only [overDirectory, stages, survey, directory, conclude, Bool.false_eq_true, if_false,
      bind_assoc, pure_bind]
    cases output with
    | none =>
      simp only [bind_assoc, pure_bind]
      rfl
    | some output =>
      simp only [bind_assoc, pure_bind]
      rfl
  | true =>
    simp only [overDirectory, stages, survey, combined, conclude, if_true, bind_assoc, pure_bind]
    cases output with
    | none =>
      simp only [bind_assoc, pure_bind]
      rfl
    | some output =>
      simp only [bind_assoc, pure_bind]
      rfl

/-! ## The meter -/

theorem keepsMeter_minifyPlainly (file : SourceFile) : KeepsMeter (minifyPlainly file) := by
  refine (keepsMeter_read file.path).bind fun content => ?_
  cases content with
  | none => exact keepsMeter_pure _
  | some content => exact keepsMeter_pure _

theorem keepsMeter_minifySelected (rules : RuleSet) (file : SourceFile) :
    KeepsMeter (minifySelected rules file) := by
  refine (keepsMeter_read file.path).bind fun content => ?_
  cases content with
  | none => exact keepsMeter_pure _
  | some content =>
    refine (keepsMeter_logged _).bind fun minified => ?_
    cases minified with
    | some minified => exact keepsMeter_pure _
    | none => exact (keepsMeter_note _ _).bind fun _ => keepsMeter_pure _

theorem keepsMeter_minifyFile (rules : Option RuleSet) (file : SourceFile) :
    KeepsMeter (minifyFile rules file) := by
  cases rules with
  | none => exact keepsMeter_minifyPlainly file
  | some rules => exact keepsMeter_minifySelected rules file

theorem keepsMeter_deliver (output : Path) (file : SourceFile) (outcome : Outcome) :
    KeepsMeter (deliver output file outcome) := by
  cases outcome with
  | done content minified =>
    exact (keepsMeter_write _ _).bind fun written =>
      KeepsMeter.ite (keepsMeter_pure _) (keepsMeter_pure _)
  | skipped => exact keepsMeter_pure _
  | failed => exact keepsMeter_pure _

theorem keepsMeter_handling (combine : Bool) (rules : Option RuleSet) (output : Path)
    (file : SourceFile) : KeepsMeter (handling combine rules output file) :=
  KeepsMeter.ite (keepsMeter_minifyFile rules file)
    ((keepsMeter_minifyFile rules file).bind fun outcome => keepsMeter_deliver output file outcome)

/-! ## Outcomes -/

/-- Writing a file leaves it as much skipped as it was. -/
theorem isSkipped_of_gives_deliver {output : Path} {file : SourceFile} {outcome result : Outcome}
    {s t : Session} (h : Gives (deliver output file outcome) s result t) :
    result.isSkipped = outcome.isSkipped := by
  cases outcome with
  | done content minified =>
    obtain ⟨written, u, -, h⟩ := gives_bind_iff.1 h
    cases written with
    | true => rw [(gives_pure_iff.1 h).1]
    | false =>
      rw [(gives_pure_iff.1 h).1]
      rfl
  | skipped => rw [(gives_pure_iff.1 h).1]
  | failed => rw [(gives_pure_iff.1 h).1]

/-- A file is skipped iff minifying it skips it. -/
theorem exists_minifyFile_of_gives_handling {combine : Bool} {rules : Option RuleSet}
    {output : Path} {file : SourceFile} {outcome : Outcome} {s t : Session}
    (h : Gives (handling combine rules output file) s outcome t) :
    ∃ result u, Gives (minifyFile rules file) s result u ∧
      outcome.isSkipped = result.isSkipped := by
  cases combine with
  | false =>
    obtain ⟨result, u, hminify, hdeliver⟩ := gives_bind_iff.1 h
    exact ⟨result, u, hminify, isSkipped_of_gives_deliver hdeliver⟩
  | true => exact ⟨outcome, t, h, rfl⟩

/-- Without a rule set no file is skipped. -/
theorem isSkipped_of_gives_minifyPlainly {file : SourceFile} {outcome : Outcome} {s t : Session}
    (h : Gives (minifyPlainly file) s outcome t) : outcome.isSkipped = false := by
  obtain ⟨content, u, -, h⟩ := gives_bind_iff.1 h
  cases content with
  | none =>
    rw [(gives_pure_iff.1 h).1]
    rfl
  | some content =>
    rw [(gives_pure_iff.1 h).1]
    rfl

/-! ## Counters -/

/-- A summary has the counters of given outcomes. -/
structure Counts (outcomes : List (SourceFile × Outcome)) (summary : Summary) : Prop where
  total : summary.total = outcomes.length
  succeeded : summary.succeeded = outcomes.countP fun result => result.2.isDone
  skipped : summary.skipped = outcomes.countP fun result => result.2.isSkipped

/-- The files of a bundle are those that were minified. -/
theorem length_filterMap_minified {α : Type} (f : SourceFile → Text → α)
    (outcomes : List (SourceFile × Outcome)) :
    (outcomes.filterMap fun (file, outcome) => outcome.minified?.map (f file)).length =
      outcomes.countP fun result => result.2.isDone := by
  induction outcomes with
  | nil => rfl
  | cons result outcomes ih =>
    obtain ⟨file, outcome⟩ := result
    rw [List.countP_cons, ← ih]
    cases outcome with
    | done content minified => rfl
    | skipped => rfl
    | failed => rfl

/-- A bundle counts the files that were minified. -/
theorem fileCount_of_gives_bundle {rules : Option RuleSet}
    {outcomes : List (SourceFile × Outcome)} {s t : Session} {found : Bundle}
    (h : Gives (bundle rules outcomes) s found t) :
    found.fileCount = outcomes.countP (fun result => result.2.isDone) ∧ t.meter = s.meter := by
  cases rules with
  | none =>
    obtain ⟨rfl, rfl⟩ := gives_pure_iff.1 h
    rw [Bundle.fileCount_ofKinds]
    exact ⟨length_filterMap_minified (fun file text => (file.relative, file.kind, text)) outcomes,
      rfl⟩
  | some rules =>
    have h := gives_get_bind_iff.1 h
    cases hheader : header [] rules s.clock with
    | error missing =>
      simp only [hheader] at h
      exact absurd h not_gives_throw
    | ok written =>
      simp only [hheader] at h
      obtain ⟨rfl, rfl⟩ := gives_pure_iff.1 h
      rw [Bundle.fileCount_ofGroups]
      exact ⟨length_filterMap_minified (fun file text => (file.relative, text)) outcomes, rfl⟩

/-- Writing the combined file changes no counter. -/
theorem summary_of_gives_writeCombined {summary summary' : Summary} {output : Path} {text : Text}
    {s t : Session} (h : Gives (writeCombined summary output text) s summary' t) :
    summary'.total = summary.total ∧ summary'.succeeded = summary.succeeded ∧
      summary'.skipped = summary.skipped ∧ summary'.groupCounts = summary.groupCounts ∧
        t.meter = s.meter := by
  obtain ⟨written, u, hwrite, h⟩ := gives_bind_iff.1 h
  have hmeter := keepsMeter_write _ _ hwrite
  cases written with
  | true =>
    obtain ⟨_, v, hnote, h⟩ := gives_bind_iff.1 h
    obtain ⟨rfl, rfl⟩ := gives_pure_iff.1 h
    exact ⟨rfl, rfl, rfl, rfl, (keepsMeter_note _ _ hnote).trans hmeter⟩
  | false =>
    obtain ⟨rfl, rfl⟩ := gives_pure_iff.1 h
    exact ⟨rfl, rfl, rfl, rfl, hmeter⟩

/-- The last stage of a run counts the outcomes, and leaves the meter as it is. -/
theorem counts_of_gives_conclude {combine : Bool} {rules : Option RuleSet} {target : Path}
    {outcomes : List (SourceFile × Outcome)} {s t : Session} {summary : Summary}
    (h : Gives (conclude combine rules target outcomes) s summary t) :
    Counts outcomes summary ∧
      (combine = true → (summary.groupCounts.map Prod.snd).sum = summary.succeeded) ∧
        t.meter = s.meter := by
  cases combine with
  | false =>
    obtain ⟨_, u, hnote, h⟩ := gives_bind_iff.1 h
    obtain ⟨rfl, rfl⟩ := gives_pure_iff.1 h
    exact ⟨⟨rfl, rfl, rfl⟩, fun hcombine => absurd hcombine (by decide), keepsMeter_note _ _ hnote⟩
  | true =>
    obtain ⟨found, u, hbundle, h⟩ := gives_bind_iff.1 h
    obtain ⟨hcount, hmeter⟩ := fileCount_of_gives_bundle hbundle
    obtain ⟨htotal, hsucceeded, hskipped, hgroups, hmeter'⟩ := summary_of_gives_writeCombined h
    refine ⟨⟨htotal, hsucceeded, hskipped⟩, fun _ => ?_, hmeter'.trans hmeter⟩
    rw [hgroups, hsucceeded]
    show ((found.counts.map fun (name, count) => (name, (count : Int))).map Prod.snd).sum =
      ((outcomes.countP fun result => result.2.isDone : Nat) : Int)
    rw [← hcount, Bundle.fileCount_eq_sum]
    induction found.counts with
    | nil => rfl
    | cons first rest ih =>
      rw [List.map_cons, List.map_cons, List.sum_cons, ih, List.map_cons, List.sum_cons,
        Int.natCast_add]

/-! ## Stages of a run -/

/-- A run that gives a summary has found no files, or has gone through its stages. -/
theorem exists_survey_of_gives {combine : Bool} {rules : Option RuleSet} {source : Path}
    {output : Option Path} {s t : Session} {summary : Summary}
    (h : Gives (overDirectory combine rules source output) s summary t) :
    summary.total = 0 ∨ ∃ target files u,
      Gives (survey combine rules source output) s (target, .ok files) u := by
  rw [overDirectory_eq_stages] at h
  obtain ⟨⟨target, found⟩, u, hsurvey, h⟩ := gives_bind_iff.1 h
  cases found with
  | error message =>
    obtain ⟨_, v, -, h⟩ := gives_bind_iff.1 h
    obtain ⟨rfl, rfl⟩ := gives_pure_iff.1 h
    exact Or.inl rfl
  | ok files => exact Or.inr ⟨target, files, u, hsurvey⟩

/-- A run that has found files handles them in turn, counts what they became, and ends with the
meter at their number. -/
theorem exists_outcomes_of_gives {combine : Bool} {rules : Option RuleSet} {source target : Path}
    {output : Option Path} {files : List SourceFile} {s t u : Session} {summary : Summary}
    (hsurvey : Gives (survey combine rules source output) s (target, .ok files) u)
    (h : Gives (overDirectory combine rules source output) s summary t) :
    ∃ outcomes,
      List.Forall₂ (Became (handling combine rules target))
          (turns (handling combine rules target) files (beginTurns files u)) outcomes ∧
        Counts outcomes summary ∧
        (combine = true → (summary.groupCounts.map Prod.snd).sum = summary.succeeded) ∧
        t.meter = ⟨files.length, files.length⟩ := by
  rw [overDirectory_eq_stages] at h
  obtain ⟨found, u', hsurvey', h⟩ := gives_bind_iff.1 h
  obtain ⟨rfl, rfl⟩ := hsurvey'.unique hsurvey
  obtain ⟨outcomes, v, hturns, h⟩ := gives_bind_iff.1 h
  obtain ⟨hbecame, hmeter⟩ :=
    became_of_gives_handleAll (keepsMeter_handling combine rules target) hturns
  obtain ⟨hcounts, hgroups, hkept⟩ := counts_of_gives_conclude h
  exact ⟨outcomes, hbecame, hcounts, hgroups, hkept.trans hmeter⟩

/-! ## A small disk -/

/-- A session on a disk that holds one file in one directory, which may be protected. -/
def oneFile (name : String) (isProtected : Bool) : Session where
  disk := {
    entries := [(["src"], .directory), (["src", name], .file [97, 32, 59])]
    workingDirectory := []
    home := ⟨.root, ["home"]⟩
    unreadable := if isProtected then [["src", name]] else [] }
  clock := ⟨2024, 1, 1, 0, 0, 0⟩

end Run

end Minifier
