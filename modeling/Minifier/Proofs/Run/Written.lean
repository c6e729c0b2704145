import Minifier.Proofs.Run.Settling

/-!
# Counted files and written files

Every file that a run counts as minified should have its text on the disk when the run is over, and
a file whose text could not be written should count as failed. A run over one file keeps to this,
and a run that writes each file by itself does so unless links lead two files to one place with
different texts. A run that puts all files into one counts them before it writes, so it keeps to it
exactly when that one write succeeds or no file was minified (`counted_as_written_iff`,
`files_are_counted_without_a_bundle`).
-/

set_option autoImplicit false

namespace Minifier

namespace Run

open Job

variable {combine : Bool} {rules : Option RuleSet} {source target : Path} {output : Option Path}
  {file : SourceFile} {files : List SourceFile} {disk : Disk} {place : Location}
  {summary : Summary} {s t u : Session}

/-! ## Files by themselves -/

/-- A place holds the text of one of the files that were minified, and the path of that file leads
to it. -/
def HoldsText (target : Path) (settled : List (SourceFile × Outcome) × Disk) (place : Location) :
    Prop :=
  ∃ file content minified, (file, .done content minified) ∈ settled.1 ∧
    settled.2.locate true (outputOf target file) =
      .ok (.taken place (.file (Utf8.encode minified)))

theorem HoldsText.cons {outcomes : List (SourceFile × Outcome)} {first : SourceFile × Outcome}
    (h : HoldsText target (outcomes, disk) place) :
    HoldsText target (first :: outcomes, disk) place := by
  obtain ⟨file, content, minified, hmem, hlocate⟩ := h
  exact ⟨file, content, minified, List.mem_cons_of_mem _ hmem, hlocate⟩

/-- The content of a place stays what it is unless the text of a file is written there. -/
theorem contentAt?_settleAll {bytes : Bytes} (h : disk.contentAt? place = some bytes) :
    (settleAll false rules target files disk).2.contentAt? place = some bytes ∨
      HoldsText target (settleAll false rules target files disk) place := by
  induction files generalizing disk bytes with
  | nil => exact Or.inl h
  | cons file files ih =>
    obtain ⟨-, ⟨content, minified, written, hdone, hlocate, hcontents⟩ | ⟨-, hcontents⟩⟩ :=
      settled_cases rules target file disk
    · by_cases hplace : place = written
      · -- the file is written here: its text stays, or a later one is written here as well
        subst hplace
        refine Or.inr ((ih ((hcontents place).trans (if_pos rfl))).elim
          (fun hkept => ?_) HoldsText.cons)
        obtain ⟨last, hlast, hfound⟩ := (grows_settleAll rules target files _).locate_file hlocate
        cases hkept.symm.trans hlast
        exact ⟨file, content, minified,
          List.mem_cons.2 (Or.inl (Prod.ext rfl hdone.symm)), hfound⟩
      · exact (ih ((hcontents place).trans ((if_neg hplace).trans h))).imp_right HoldsText.cons
    · exact (ih ((hcontents place).trans h)).imp_right HoldsText.cons

/-- The path of a file that was minified leads to a place that holds the text of such a file. -/
theorem exists_holdsText_of_done {content minified : Text}
    (h : (file, .done content minified) ∈ (settleAll false rules target files disk).1) :
    ∃ place bytes, HoldsText target (settleAll false rules target files disk) place ∧
      (settleAll false rules target files disk).2.locate true (outputOf target file) =
        .ok (.taken place (.file bytes)) := by
  induction files generalizing disk with
  | nil => cases h
  | cons first files ih =>
    rcases List.mem_cons.1 h with hfirst | hrest
    · obtain ⟨rfl, houtcome⟩ := Prod.mk.inj hfirst
      obtain ⟨-, ⟨content', minified', place, hdone, hlocate, hcontents⟩ | ⟨hdone, -⟩⟩ :=
        settled_cases rules target file disk
      · obtain ⟨last, hlast, hfound⟩ := (grows_settleAll rules target files _).locate_file hlocate
        refine ⟨place, last, ?_, hfound⟩
        refine (contentAt?_settleAll ((hcontents place).trans (if_pos rfl))).elim
          (fun hkept => ?_) HoldsText.cons
        cases hkept.symm.trans hlast
        exact ⟨file, content', minified',
          List.mem_cons.2 (Or.inl (Prod.ext rfl hdone.symm)), hfound⟩
      · rw [← houtcome] at hdone
        cases hdone
    · obtain ⟨place, bytes, hholds, hlocate⟩ := ih hrest
      exact ⟨place, bytes, hholds.cons, hlocate⟩

/-! ## All files -/

/-- The text of a file that was minified is on the disk: in a file of its own, or, less what the
rules strip, within the file that all go into. -/
def IsWritten (combine : Bool) (rules : Option RuleSet) (target : Path) (disk : Disk)
    (result : SourceFile × Outcome) : Prop :=
  ∀ minified, result.2.minified? = some minified →
    if combine then
      ∃ bytes, disk.read target = .ok bytes ∧
        Utf8.encode (strippedBy (rules.bind RuleSet.stripPrefix) minified) <:+: bytes
    else disk.read (outputOf target result.1) = .ok (Utf8.encode minified)

/-- Two files that were minified have the same text wherever their paths lead to one place. -/
def Agree (target : Path) (disk : Disk) (first second : SourceFile × Outcome) : Prop :=
  ∀ minified minified', first.2.minified? = some minified →
    second.2.minified? = some minified' →
      disk.locate true (outputOf target first.1) = disk.locate true (outputOf target second.1) →
        Utf8.encode minified = Utf8.encode minified'

/-- Whether a file cannot be read in its turn, and no rules leave it out for that. -/
def isUnread (rules : Option RuleSet) (place : SourceFile × Disk) : Bool :=
  attempt rules place.1 place.2 = .failed

/-- Whether a file is minified in its turn but its text cannot be written; where all files go into
one, the text is lost with that file. -/
def isUnwritten (combine : Bool) (rules : Option RuleSet) (target : Path) (lost : Bool)
    (place : SourceFile × Disk) : Bool :=
  match attempt rules place.1 place.2 with
  | .done _ minified =>
    if combine then lost
    else !(place.2.save (outputOf target place.1) (Utf8.encode minified)).1.isOk
  | _ => false

theorem minified?_eq_some_iff {outcome : Outcome} {minified : Text} :
    outcome.minified? = some minified ↔ ∃ content, outcome = .done content minified := by
  cases outcome <;> simp [Outcome.minified?]

/-- Files by themselves are all written iff no two of them meet at one place with different texts.
-/
theorem forall_isWritten_iff (rules : Option RuleSet) (target : Path) (files : List SourceFile)
    (disk : Disk) :
    (∀ result ∈ (settleAll false rules target files disk).1,
        IsWritten false rules target (settleAll false rules target files disk).2 result) ↔
      ∀ first ∈ (settleAll false rules target files disk).1,
        ∀ second ∈ (settleAll false rules target files disk).1,
          Agree target (settleAll false rules target files disk).2 first second := by
  constructor
  · intro h first hfirst second hsecond minified minified' hminified hminified' hsame
    obtain ⟨place, hplace⟩ := Disk.read_eq_ok_iff.1 (h first hfirst minified hminified)
    obtain ⟨place', hplace'⟩ := Disk.read_eq_ok_iff.1 (h second hsecond minified' hminified')
    rw [hplace, hplace'] at hsame
    exact Entry.file.inj (Spot.taken.inj (Except.ok.inj hsame)).2
  · rintro h ⟨file, outcome⟩ hmem minified hminified
    obtain ⟨content, rfl⟩ := minified?_eq_some_iff.1 hminified
    obtain ⟨place, bytes, ⟨other, content', minified', hother, hlocate'⟩, hlocate⟩ :=
      exists_holdsText_of_done hmem
    have hbytes : bytes = Utf8.encode minified' :=
      Entry.file.inj (Option.some.inj ((Disk.entryAt?_of_locate_file hlocate).symm.trans
        (Disk.entryAt?_of_locate_file hlocate')))
    rw [← hbytes] at hlocate'
    have hagree := h _ hmem _ hother minified minified' rfl rfl (hlocate.trans hlocate'.symm)
    exact Disk.read_eq_ok_iff.2 ⟨place, by rw [hlocate, hbytes, hagree]⟩

/-- What a bundle is made of is in it. -/
theorem infix_of_bundled {outcomes : List (SourceFile × Outcome)} {clock : Stamp} {found : Bundle}
    {minified : Text} {outcome : Outcome} (hbundled : bundled rules clock outcomes = .ok found)
    (hmem : (file, outcome) ∈ outcomes) (hminified : outcome.minified? = some minified) :
    strippedBy (rules.bind RuleSet.stripPrefix) minified <:+: found.text := by
  cases rules with
  | none =>
    cases hbundled
    have hfile : (file.relative, file.kind, minified) ∈ outcomes.filterMap fun result =>
        result.2.minified?.map fun text => (result.1.relative, result.1.kind, text) :=
      List.mem_filterMap.2 ⟨_, hmem, congrArg (Option.map _) hminified⟩
    exact Bundle.infix_ofKinds hfile
  | some rules =>
    rw [bundled] at hbundled
    cases hheader : header [] rules clock with
    | error missing =>
      rw [hheader] at hbundled
      cases hbundled
    | ok written =>
      rw [hheader] at hbundled
      cases hbundled
      have hfile : (file.relative, minified) ∈ outcomes.filterMap fun result =>
          result.2.minified?.map fun text => (result.1.relative, text) :=
        List.mem_filterMap.2 ⟨_, hmem, congrArg (Option.map _) hminified⟩
      exact Bundle.infix_ofGroups hfile

theorem encode_infix {part text : Text} (h : part <:+: text) :
    Utf8.encode part <:+: Utf8.encode text := by
  obtain ⟨before, after, rfl⟩ := h
  simp only [Utf8.encode, List.flatMap_append]
  exact List.infix_append _ _ _

/-! ## Counting -/

theorem Counts.failed {outcomes : List (SourceFile × Outcome)} (h : Counts outcomes summary) :
    summary.failed = outcomes.countP fun result => result.2 = .failed := by
  have hsplit : outcomes.length = (outcomes.countP fun result => result.2.isDone) +
      (outcomes.countP fun result => result.2.isSkipped) +
        outcomes.countP fun result => result.2 = .failed := by
    clear h
    induction outcomes with
    | nil => rfl
    | cons first outcomes ih =>
      obtain ⟨file, outcome⟩ := first
      rw [List.length_cons, List.countP_cons, List.countP_cons, List.countP_cons, ih]
      cases outcome <;> simp [Outcome.isDone, Outcome.isSkipped] <;> omega
  rw [Summary.failed, h.total, h.succeeded, h.skipped, hsplit]
  omega

/-- Files by themselves fail when they cannot be read or cannot be written. -/
theorem countP_failed_settleAll (rules : Option RuleSet) (target : Path)
    (files : List SourceFile) (disk : Disk) (lost : Bool) :
    ((settleAll false rules target files disk).1.countP fun result => result.2 = .failed) =
      (inTurn false rules target files disk).countP (isUnread rules) +
        (inTurn false rules target files disk).countP (isUnwritten false rules target lost) := by
  have hdisjoint : ∀ place, isUnwritten false rules target lost place =
      (!isUnread rules place && isUnwritten false rules target lost place) := by
    intro place
    rw [isUnread, isUnwritten]
    cases attempt rules place.1 place.2 <;> simp
  rw [settleAll_fst, List.countP_map, funext hdisjoint, ← countP_or]
  refine List.countP_congr fun place _ => ?_
  have hsettled : settled false rules target place.1 place.2 =
      delivery target place.1 (attempt rules place.1 place.2) place.2 := rfl
  rw [Function.comp_apply, settledIn, hsettled, isUnread, isUnwritten]
  cases attempt rules place.1 place.2 with
  | skipped => simp [delivery]
  | failed => simp [delivery]
  | done content minified =>
    cases hsaved : (place.2.save (outputOf target place.1) (Utf8.encode minified)).1.isOk <;>
      simp [delivery, hsaved]

/-- Files that all go into one fail when they cannot be read. -/
theorem countP_failed_combine (rules : Option RuleSet) (target : Path)
    (files : List SourceFile) (disk : Disk) :
    ((settleAll true rules target files disk).1.countP fun result => result.2 = .failed) =
      (inTurn true rules target files disk).countP (isUnread rules) := by
  rw [settleAll_combine, inTurn_combine, List.countP_map, List.countP_map]
  rfl

/-- Files that all go into one are unwritten if that one is lost: all that were minified. -/
theorem countP_isUnwritten_combine (rules : Option RuleSet) (target : Path)
    (files : List SourceFile) (disk : Disk) (lost : Bool) :
    (inTurn true rules target files disk).countP (isUnwritten true rules target lost) =
      if lost then (settleAll true rules target files disk).1.countP fun result => result.2.isDone
      else 0 := by
  rw [settleAll_combine, inTurn_combine, List.countP_map]
  cases lost with
  | true =>
    rw [if_pos rfl, List.countP_map]
    refine List.countP_congr fun file _ => ?_
    rw [Function.comp_apply, Function.comp_apply, isUnwritten]
    cases attempt rules file disk <;> rfl
  | false =>
    rw [if_neg Bool.false_ne_true, List.countP_eq_zero]
    intro file _
    rw [Function.comp_apply, isUnwritten]
    cases attempt rules file disk <;> simp

/-! ## Runs -/

/-- A run over one file counts it as minified when its text is written, and otherwise as failed. -/
theorem written_of_gives_single (hlog : s.log.file = none)
    (h : Gives (single source output) s summary t) :
    (summary.succeeded = 0 ∧ summary.failed = summary.total ∨
      summary.succeeded = 1 ∧ summary.failed = 0 ∧ ∃ place kind bytes target,
        s.disk.expandHome source = .ok place ∧ Kind.ofPath? place = some kind ∧
          s.disk.readProtected place = .ok bytes ∧ summary.outputPath = some target ∧
            t.disk.read target = .ok (Utf8.encode (minify kind (Utf8.decode bytes)))) ∧
      ∀ place kind bytes, s.disk.expandHome source = .ok place →
        s.disk.isFile? place = .ok true → Kind.ofPath? place = some kind →
          s.disk.readProtected place = .ok bytes → summary.total = 1 := by
  rcases single_cases hlog h with ⟨message, rfl, -, hrefused⟩ |
    ⟨message, place, error, rfl, -, hplace, hunread⟩ |
      ⟨place, kind, bytes, hplace, hkind, hbytes, -, rfl, hdisk⟩
  · refine ⟨Or.inl ⟨rfl, rfl⟩, fun place kind bytes hplace hfile hkind _ => ?_⟩
    rw [hrefused place hplace hfile] at hkind
    cases hkind
  · exact ⟨Or.inl ⟨rfl, rfl⟩, fun _ _ _ _ _ _ _ => rfl⟩
  · rw [hdisk]
    -- the text is saved and read back, or the file is counted as failed
    rcases s.disk.save_cases (targetOf place output)
      (Utf8.encode (minify kind (Utf8.decode bytes))) with
        ⟨furnished, written, -, -, -, hsave, hlocate⟩ | ⟨error, furnished, -, hsave⟩
    · rw [hsave]
      exact ⟨Or.inr ⟨rfl, rfl, place, kind, bytes, _, hplace, hkind, hbytes, rfl,
        Disk.read_eq_ok_iff.2 ⟨written, hlocate⟩⟩, fun _ _ _ _ _ _ _ => rfl⟩
    · rw [hsave]
      exact ⟨Or.inl ⟨rfl, rfl⟩, fun _ _ _ _ _ _ _ => rfl⟩

/-- Writing the combined file changes no counter; an error says that it could not be written. -/
theorem counts_reported {outcomes : List (SourceFile × Outcome)} {text : Text} {written : Bool}
    (h : Counts outcomes summary) : Counts outcomes (reported summary target text written) := by
  cases written with
  | true => exact ⟨h.total, h.succeeded, h.skipped⟩
  | false => exact ⟨h.total, h.succeeded, h.skipped⟩

theorem error_reported {text : Text} {written : Bool} (h : summary.error = none) :
    (reported summary target text written).error = none ↔ written = true := by
  cases written with
  | true => exact iff_of_true h rfl
  | false => exact iff_of_false (fun herror => by cases herror) Bool.false_ne_true

/-- A run that writes each file by itself counts every file that fails, and the files that it counts
as minified are written iff no two of them meet with different texts. -/
theorem written_of_concluded_separately {clock : Stamp} {after : Disk}
    (h : concluded false rules target clock (settleAll false rules target files disk) =
      .ok (summary, after)) :
    Counts (settleAll false rules target files disk).1 summary ∧
      (((∀ result ∈ (settleAll false rules target files disk).1,
          IsWritten false rules target after result) ∧
        summary.failed = (inTurn false rules target files disk).countP (isUnread rules) +
          (inTurn false rules target files disk).countP
            (isUnwritten false rules target summary.error.isSome)) ↔
        ∀ first ∈ (settleAll false rules target files disk).1,
          ∀ second ∈ (settleAll false rules target files disk).1,
            Agree target after first second) := by
  cases h
  have hcounts : Counts (settleAll false rules target files disk).1
      { Summary.ofOutcomes (settleAll false rules target files disk).1 with
        outputPath := some target } :=
    ⟨rfl, rfl, rfl⟩
  refine ⟨hcounts, ?_⟩
  rw [← forall_isWritten_iff, hcounts.failed, countP_failed_settleAll, Int.natCast_add]
  exact and_iff_left rfl

/-- A run that puts all files into one writes the files that it counts as minified, and counts as
failed those that it does not write, iff that one is written or there are none to write. -/
theorem written_of_concluded_together {clock : Stamp} {after : Disk}
    (h : concluded true rules target clock (settleAll true rules target files disk) =
      .ok (summary, after)) :
    Counts (settleAll true rules target files disk).1 summary ∧
      (((∀ result ∈ (settleAll true rules target files disk).1,
          IsWritten true rules target after result) ∧
        summary.failed = (inTurn true rules target files disk).countP (isUnread rules) +
          (inTurn true rules target files disk).countP
            (isUnwritten true rules target summary.error.isSome)) ↔
        summary.error = none ∨ summary.succeeded = 0) := by
  obtain ⟨bundle, hbundled, hsummary, rfl⟩ := concluded_together_eq_ok_iff.1 h
  have hcounts : Counts (settleAll true rules target files disk).1 summary := by
    rw [← hsummary]
    exact counts_reported ⟨rfl, rfl, rfl⟩
  have herror : summary.error = none ↔ ((settleAll true rules target files disk).2.save target
      (Utf8.encode bundle.text)).1.isOk = true := by
    rw [← hsummary]
    exact error_reported rfl
  refine ⟨hcounts, ?_⟩
  rw [hcounts.failed, countP_failed_combine, countP_isUnwritten_combine, hcounts.succeeded]
  constructor
  · rintro ⟨-, hfailed⟩
    cases hlost : summary.error with
    | none => exact Or.inl rfl
    | some message =>
      rw [hlost, Option.isSome_some, if_pos rfl] at hfailed
      exact Or.inr (by omega)
  · rintro (hnone | hnothing)
    · -- the bundle is written, and holds every minified text
      refine ⟨fun result hmem minified hminified => ⟨_, Disk.read_of_save (herror.1 hnone), ?_⟩,
        by simp [hnone]⟩
      exact encode_infix (infix_of_bundled hbundled hmem hminified)
    · have hzero : ((settleAll true rules target files disk).1.countP
          fun result => result.2.isDone) = 0 := by
        omega
      refine ⟨fun result hmem minified hminified => ?_, by rw [hzero, ite_self]; rfl⟩
      obtain ⟨content, hdone⟩ := minified?_eq_some_iff.1 hminified
      have hnot := List.countP_eq_zero.1 hzero result hmem
      rw [hdone] at hnot
      exact absurd rfl hnot

/-- A run over one file counts it as minified when it is written, and as failed when it is not. A
run over a directory does so with each of its files exactly when, all files going into one, that one
is written or no file was minified, or, each file being written by itself, no two of them are led to
one place with different texts. -/
theorem counted_as_written_iff (hlog : s.log.file = none) :
    (∀ {source : Path} {output : Option Path} {summary : Summary} {t : Session},
      Gives (single source output) s summary t →
        (summary.succeeded = 0 ∧ summary.failed = summary.total ∨
          summary.succeeded = 1 ∧ summary.failed = 0 ∧ ∃ place kind bytes target,
            s.disk.expandHome source = .ok place ∧ Kind.ofPath? place = some kind ∧
              s.disk.readProtected place = .ok bytes ∧ summary.outputPath = some target ∧
                t.disk.read target = .ok (Utf8.encode (minify kind (Utf8.decode bytes)))) ∧
          ∀ place kind bytes, s.disk.expandHome source = .ok place →
            s.disk.isFile? place = .ok true → Kind.ofPath? place = some kind →
              s.disk.readProtected place = .ok bytes → summary.total = 1) ∧
    ∀ {combine : Bool} {rules : Option RuleSet} {source target : Path} {output : Option Path}
      {files : List SourceFile} {summary : Summary} {t u : Session},
      Gives (survey combine rules source output) s (target, .ok files) u →
        Gives (overDirectory combine rules source output) s summary t →
          Counts (settleAll combine rules target files s.disk).1 summary ∧
          (((∀ result ∈ (settleAll combine rules target files s.disk).1,
              IsWritten combine rules target t.disk result) ∧
            summary.failed = (inTurn combine rules target files s.disk).countP (isUnread rules) +
              (inTurn combine rules target files s.disk).countP
                (isUnwritten combine rules target summary.error.isSome)) ↔
            if combine then summary.error = none ∨ summary.succeeded = 0
            else ∀ first ∈ (settleAll combine rules target files s.disk).1,
              ∀ second ∈ (settleAll combine rules target files s.disk).1,
                Agree target t.disk first second) := by
  refine ⟨fun h => written_of_gives_single hlog h, ?_⟩
  intro combine rules source target output files summary t u hsurvey h
  obtain ⟨-, hconcluded⟩ := eq_of_gives_overDirectory hlog hsurvey h
  cases combine with
  | false => exact written_of_concluded_separately hconcluded
  | true => exact written_of_concluded_together hconcluded

/-! ## One file -/

/-- The file of `oneFile`, as a run over its directory finds it. -/
def onlyScript : SourceFile :=
  ⟨⟨.root, ["src", "a.js"]⟩, "a.js", .javaScript⟩

/-- One file is counted as minified and written, by itself as well as into a file for all. -/
theorem one_file_is_counted_as_written :
    (∃ summary t, Gives (single onlyScript.path none) (oneFile "a.js" false) summary t ∧
        summary.total = 1) ∧
      ∃ target u summary t,
        Gives (survey true none ⟨.root, ["src"]⟩ none) (oneFile "a.js" false)
            (target, .ok [onlyScript]) u ∧
          Gives (overDirectory true none ⟨.root, ["src"]⟩ none) (oneFile "a.js" false) summary t ∧
          summary.error = none ∧
          ∀ result ∈ (settleAll true none target [onlyScript] (oneFile "a.js" false).disk).1,
            IsWritten true none target t.disk result := by
  have hsingle : ((single onlyScript.path none).run (oneFile "a.js" false)).1 =
      .ok {
        total := 1, succeeded := 1, bytesSaved := 1
        outputPath := some ⟨.root, ["src", "minified", "a.js"]⟩, outputSize := some 2 } := by
    decide +kernel
  have hsurvey : ((survey true none ⟨.root, ["src"]⟩ none).run (oneFile "a.js" false)).1 =
      .ok (⟨.root, ["minified", "src.combined.min.js"]⟩, .ok [onlyScript]) := by
    decide +kernel
  have hrun : ((overDirectory true none ⟨.root, ["src"]⟩ none).run (oneFile "a.js" false)).1 =
      .ok {
        total := 1, succeeded := 1, bytesSaved := 1
        outputPath := some ⟨.root, ["minified", "src.combined.min.js"]⟩
        outputSize := some 18, groupCounts := [("script", 1)] } := by
    decide +kernel
  obtain ⟨honly, hall⟩ := counted_as_written_iff (s := oneFile "a.js" false) rfl
  have htotal := (honly (gives_of_run hsingle)).2 onlyScript.path .javaScript [97, 32, 59]
    (by decide +kernel) (by decide +kernel) (by decide +kernel) (by decide +kernel)
  have hwritten := (hall (gives_of_run hsurvey) (gives_of_run hrun)).2.2 (Or.inl rfl)
  exact ⟨⟨_, _, gives_of_run hsingle, htotal⟩,
    _, _, _, _, gives_of_run hsurvey, gives_of_run hrun, rfl, hwritten.1⟩

/-- What a run reports of its files: how many were minified, how many failed, and whether all went
well. -/
def tally (summary : Summary) : Int × Int × Bool :=
  (summary.succeeded, summary.failed, summary.ok)

/-- A file stands where a directory for the combined file would have to be made: nothing is written,
but the file counts as minified and none as failed. -/
theorem files_are_counted_without_a_bundle :
    ((combined none ⟨.root, ["src"]⟩ (some ⟨.root, ["src", "a.js", "all.js"]⟩)).run
        (oneFile "a.js" false)).1.map tally = .ok (1, 0, false) ∧
      ((combined none ⟨.root, ["src"]⟩ (some ⟨.root, ["src", "a.js", "all.js"]⟩)).run
        (oneFile "a.js" false)).2.disk = (oneFile "a.js" false).disk ∧
      (oneFile "a.js" false).disk.read ⟨.root, ["src", "a.js", "all.js"]⟩ =
        .error .notADirectory := by
  decide +kernel

end Run

end Minifier
