import Minifier.Proofs.Run.Flows

/-!
# Skipped files

Under a rule set a run skips the files that the rules reject, and also those that they select but
that cannot be read when their turn comes (`skipped_eq_rejected_add_unreadable`). So the skipped
files are the rejected ones exactly when every selected file can be read in its turn, and a run
whose only trouble is an unreadable file reports that all went well
(`unreadable_file_is_skipped`).
-/

set_option autoImplicit false

namespace Minifier

namespace Run

open Job

/-! ## One file -/

/-- Whether a rule set rejects a file. -/
def rejects (rules : RuleSet) (file : SourceFile) : Bool :=
  !(select file.relative rules.including rules.excluding).value

/-- A rule set makes something of a text iff it does not reject the file. -/
theorem isSome_evaluate (rules : RuleSet) (transform : Text → Text) (file : SourceFile)
    (text : Text) :
    (evaluate rules transform file.relative text).value.isSome = !rejects rules file := by
  rw [evaluate, Logged.value_bind, rejects, Bool.not_not]
  cases (select file.relative rules.including rules.excluding).value with
  | false => rfl
  | true => rfl

/-- Under a rule set a file is skipped iff it is rejected or cannot be read. -/
theorem isSkipped_of_gives_minifySelected {rules : RuleSet} {file : SourceFile} {outcome : Outcome}
    {s t : Session} (h : Gives (minifySelected rules file) s outcome t) :
    outcome.isSkipped = (rejects rules file || !rejects rules file && !canRead s file.path) := by
  obtain ⟨content, u, hread, h⟩ := gives_bind_iff.1 h
  rw [← hread.read.1]
  cases content with
  | none =>
    rw [(gives_pure_iff.1 h).1]
    cases rejects rules file <;> rfl
  | some content =>
    obtain ⟨minified, v, hlogged, h⟩ := gives_bind_iff.1 h
    have hselected := isSome_evaluate rules (minify rules.kind) file content
    rw [← hlogged.logged] at hselected
    cases minified with
    | some minified =>
      rw [(gives_pure_iff.1 h).1, ← Bool.not_not (rejects rules file), ← hselected]
      rfl
    | none =>
      obtain ⟨_, w, -, h⟩ := gives_bind_iff.1 h
      rw [(gives_pure_iff.1 h).1, ← Bool.not_not (rejects rules file), ← hselected]
      rfl

/-! ## All files -/

theorem map_fst_turns (handle : SourceFile → Job Outcome) (files : List SourceFile) (s : Session) :
    (turns handle files s).map Prod.fst = files := by
  induction files generalizing s with
  | nil => rfl
  | cons file files ih => rw [turns, List.map_cons, ih]

/-- The files that a rule set selects and that cannot be read when their turn comes. -/
def unreadableSelected (rules : RuleSet) (places : List (SourceFile × Session)) : Nat :=
  places.countP fun place => !rejects rules place.1 && !canRead place.2 place.1.path

theorem unreadableSelected_eq_zero_iff (rules : RuleSet) (places : List (SourceFile × Session)) :
    unreadableSelected rules places = 0 ↔
      ∀ place ∈ places, rejects rules place.1 = false → canRead place.2 place.1.path = true := by
  rw [unreadableSelected, List.countP_eq_zero]
  refine forall₂_congr fun place _ => ?_
  cases rejects rules place.1 <;> simp

/-- A run under a rule set skips the files that the rules reject and the selected ones that cannot
be read; it skips no others than the rejected ones iff every selected file can be read in its
turn. -/
theorem skipped_eq_rejected_add_unreadable {combine : Bool} {rules : RuleSet}
    {source target : Path} {output : Option Path} {files : List SourceFile} {s t u : Session}
    {summary : Summary}
    (hsurvey : Gives (survey combine (some rules) source output) s (target, .ok files) u)
    (h : Gives (overDirectory combine (some rules) source output) s summary t) :
    summary.skipped = files.countP (rejects rules) + unreadableSelected rules
        (turns (handling combine (some rules) target) files (beginTurns files u)) ∧
      (summary.skipped = files.countP (rejects rules) ↔
        ∀ place ∈ turns (handling combine (some rules) target) files (beginTurns files u),
          rejects rules place.1 = false → canRead place.2 place.1.path = true) := by
  obtain ⟨outcomes, hbecame, hcounts, -, -⟩ := exists_outcomes_of_gives hsurvey h
  have hskipped : (outcomes.countP fun result => result.2.isSkipped) =
      files.countP (rejects rules) + unreadableSelected rules
        (turns (handling combine (some rules) target) files (beginTurns files u)) := by
    have hturns : (outcomes.countP fun result => result.2.isSkipped) =
        (turns (handling combine (some rules) target) files (beginTurns files u)).countP
          fun place => rejects rules place.1 ||
            !rejects rules place.1 && !canRead place.2 place.1.path := by
      -- every outcome is decided by the rules and by the disk that its turn finds
      refine countP_of_became (fun file s outcome t hgives => ?_) hbecame
      obtain ⟨result, v, hminify, hsame⟩ := exists_minifyFile_of_gives_handling hgives
      rw [hsame, isSkipped_of_gives_minifySelected hminify]
    have hrejected := List.countP_map (p := rejects rules) (f := Prod.fst)
      (l := turns (handling combine (some rules) target) files (beginTurns files u))
    rw [map_fst_turns] at hrejected
    rw [hturns, countP_or, hrejected]
    rfl
  refine ⟨by rw [hcounts.skipped, hskipped, Int.natCast_add], ?_⟩
  rw [← unreadableSelected_eq_zero_iff, hcounts.skipped, hskipped]
  omega

/-! ## One file that every rule selects -/

/-- A rule set that selects every file. -/
def everything : RuleSet where
  name := "everything"
  including := [⟨"", .empty⟩]

/-- The file of `oneFile`, as a run finds it. -/
def onlyFile : SourceFile :=
  ⟨⟨.root, ["src", "a.php"]⟩, "a.php", .php⟩

/-- A selected file that can be read is not skipped. -/
theorem readable_file_is_not_skipped :
    ∃ target u summary t,
      Gives (survey true (some everything) ⟨.root, ["src"]⟩ none) (oneFile "a.php" false)
          (target, .ok [onlyFile]) u ∧
        Gives (overDirectory true (some everything) ⟨.root, ["src"]⟩ none) (oneFile "a.php" false)
          summary t ∧
        (summary.skipped = [onlyFile].countP (rejects everything) ↔
          ∀ place ∈ turns (handling true (some everything) target) [onlyFile]
              (beginTurns [onlyFile] u),
            rejects everything place.1 = false → canRead place.2 place.1.path = true) := by
  have hsurvey : ((survey true (some everything) ⟨.root, ["src"]⟩ none).run
      (oneFile "a.php" false)).1 =
        .ok (⟨.root, ["minified", "combined.min.txt"]⟩, .ok [onlyFile]) := by
    decide +kernel
  have hrun : ((overDirectory true (some everything) ⟨.root, ["src"]⟩ none).run
      (oneFile "a.php" false)).1 =
        .ok {
          total := 1, succeeded := 1, bytesSaved := 1
          outputPath := some ⟨.root, ["minified", "combined.min.txt"]⟩
          outputSize := some 30, groupCounts := [("other", 1)] } := by
    decide +kernel
  have hsurveyed := gives_of_run hsurvey
  have hsummary := gives_of_run hrun
  exact ⟨_, _, _, _, hsurveyed, hsummary,
    (skipped_eq_rejected_add_unreadable hsurveyed hsummary).2⟩

/-- What a run reports of its files: how many were skipped, how many failed, and whether all went
well. -/
def verdict (summary : Summary) : Int × Int × Bool :=
  (summary.skipped, summary.failed, summary.ok)

/-- A selected file that cannot be read is skipped as well, and the run reports that all went
well. -/
theorem unreadable_file_is_skipped :
    [onlyFile].countP (rejects everything) = 0 ∧
      canRead (oneFile "a.php" true) onlyFile.path = false ∧
      ((survey false (some everything) ⟨.root, ["src"]⟩ none).run
          (oneFile "a.php" true)).1.map Prod.snd = .ok (.ok [onlyFile]) ∧
      ((directory (some everything) ⟨.root, ["src"]⟩ none).run
          (oneFile "a.php" true)).1.map verdict = .ok (1, 0, true) ∧
      ((survey true (some everything) ⟨.root, ["src"]⟩ none).run
          (oneFile "a.php" true)).1.map Prod.snd = .ok (.ok [onlyFile]) ∧
      ((combined (some everything) ⟨.root, ["src"]⟩ none).run
          (oneFile "a.php" true)).1.map verdict = .ok (1, 0, true) := by
  decide +kernel

end Run

end Minifier
