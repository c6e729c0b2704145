import Minifier.Proofs.Run.Flows

/-!
# The books of a run

Whatever the disk refuses, a run over a directory that handles files accounts for each of them: its
total is the number of files that it found, no more files were minified or skipped than there were,
the meter ends at the total, and the counts of the groups add up to the files that were minified
(`accounts_balance`). Without a rule set no file is skipped.
-/

set_option autoImplicit false

namespace Minifier

namespace Run

open Job

/-- No file is both minified and skipped. -/
theorem countP_isDone_add_countP_isSkipped_le (outcomes : List (SourceFile × Outcome)) :
    (outcomes.countP fun result => result.2.isDone) +
      (outcomes.countP fun result => result.2.isSkipped) ≤ outcomes.length := by
  rw [List.length_eq_countP_add_countP fun result : SourceFile × Outcome => result.2.isDone]
  refine Nat.add_le_add_left (List.countP_mono_left fun result _ hskipped => ?_) _
  cases houtcome : result.2 with
  | done content minified =>
    rw [houtcome] at hskipped
    cases hskipped
  | skipped => rfl
  | failed => rfl

theorem Counts.add_le {outcomes : List (SourceFile × Outcome)} {summary : Summary}
    (h : Counts outcomes summary) : summary.succeeded + summary.skipped ≤ summary.total := by
  have hle := countP_isDone_add_countP_isSkipped_le outcomes
  rw [h.total, h.succeeded, h.skipped]
  omega

/-- A summary of some files is fine iff it has no error and every file was minified or skipped. -/
theorem ok_iff {summary : Summary} (hfiles : 0 < summary.total) :
    summary.ok = true ↔
      summary.error = none ∧ summary.succeeded + summary.skipped = summary.total := by
  rw [Summary.ok, Summary.failed, Bool.and_eq_true, Bool.and_eq_true, Option.isNone_iff_eq_none,
    decide_eq_true_iff, decide_eq_true_iff, and_assoc, and_iff_right hfiles]
  refine and_congr_right fun _ => ?_
  omega

/-- Without a rule set no file is skipped. -/
theorem countP_isSkipped_plainly {combine : Bool} {target : Path} {files : List SourceFile}
    {s : Session} {outcomes : List (SourceFile × Outcome)}
    (h : List.Forall₂ (Became (handling combine none target))
      (turns (handling combine none target) files s) outcomes) :
    (outcomes.countP fun result => result.2.isSkipped) = 0 := by
  have hnever : (outcomes.countP fun result => result.2.isSkipped) =
      (turns (handling combine none target) files s).countP fun _ => false := by
    refine countP_of_became (fun file s outcome t hgives => ?_) h
    obtain ⟨result, u, hminify, hsame⟩ := exists_minifyFile_of_gives_handling hgives
    rw [hsame, isSkipped_of_gives_minifyPlainly hminify]
  rw [hnever, List.countP_false]
  rfl

/-- The books of a run over a directory balance, whatever fails on the way. -/
theorem accounts_balance {combine : Bool} {rules : Option RuleSet} {source : Path}
    {output : Option Path} {s t : Session} {summary : Summary}
    (h : Gives (overDirectory combine rules source output) s summary t)
    (hfiles : 0 < summary.total) :
    (∃ target files u, Gives (survey combine rules source output) s (target, .ok files) u ∧
        summary.total = files.length) ∧
      summary.succeeded + summary.skipped ≤ summary.total ∧
      0 ≤ summary.failed ∧
      (rules = none → summary.skipped = 0) ∧
      t.meter.total = summary.total ∧ t.meter.processed = summary.total ∧
      (combine = true → (summary.groupCounts.map Prod.snd).sum = summary.succeeded) ∧
      (summary.ok = true ↔
        summary.error = none ∧ summary.succeeded + summary.skipped = summary.total) := by
  rcases exists_survey_of_gives h with hnone | ⟨target, files, u, hsurvey⟩
  · omega
  obtain ⟨outcomes, hbecame, hcounts, hgroups, hmeter⟩ := exists_outcomes_of_gives hsurvey h
  have hlength : outcomes.length = files.length := by
    rw [← hbecame.length_eq, length_turns]
  have htotal : summary.total = files.length := by
    rw [hcounts.total, hlength]
  have hle := hcounts.add_le
  refine ⟨⟨target, files, u, hsurvey, htotal⟩, hle, ?_, ?_, ?_, ?_, hgroups, ok_iff hfiles⟩
  · rw [Summary.failed]
    omega
  · rintro rfl
    rw [hcounts.skipped, countP_isSkipped_plainly hbecame]
    rfl
  · rw [hmeter, htotal]
  · rw [hmeter, htotal]

/-- The books of a run that puts one file into one. -/
theorem accounts_balance_for_one_file :
    ∃ summary t,
      Gives (overDirectory true none ⟨.root, ["src"]⟩ none) (oneFile "a.js" false) summary t ∧
        0 < summary.total ∧ summary.succeeded + summary.skipped ≤ summary.total ∧
          summary.skipped = 0 ∧ t.meter.processed = summary.total ∧
            (summary.groupCounts.map Prod.snd).sum = summary.succeeded := by
  have hrun : ((overDirectory true none ⟨.root, ["src"]⟩ none).run (oneFile "a.js" false)).1 =
      .ok {
        total := 1, succeeded := 1, bytesSaved := 1
        outputPath := some ⟨.root, ["minified", "src.combined.min.js"]⟩
        outputSize := some 18, groupCounts := [("script", 1)] } := by
    decide +kernel
  have hgives := gives_of_run hrun
  obtain ⟨-, hle, -, hplain, -, hprocessed, hgroups, -⟩ := accounts_balance hgives (by decide)
  exact ⟨_, _, hgives, by decide, hle, hplain rfl, hprocessed, hgroups rfl⟩

end Run

end Minifier
