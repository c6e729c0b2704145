import Minifier.Proofs.Run.Accounting
import Minifier.Proofs.Run.Plan
import Minifier.Proofs.Run.Written

/-!
# Failed runs and the files of the disk

A run that reports a failure and no minified file should leave every file as it is, so that an
earlier result outlives it. Runs over one file do, and so do runs that write each file by itself:
what they fail to write or to read they do not touch. A run without a rule set that puts all files
into one and can read none of them, however, writes an empty file in the place of an earlier one; it
leaves the files alone only if an empty file stood there already (`failed_run_leaves_files_iff`,
`failed_run_empties_a_bundle`).
-/

set_option autoImplicit false

namespace Minifier

namespace Run

open Job

variable {combine : Bool} {rules : Option RuleSet} {source target : Path} {output : Option Path}
  {files : List SourceFile} {disk after : Disk} {place : Location} {clock : Stamp}
  {summary : Summary} {s t u : Session}

/-! ## Saving -/

/-- Saving a text changes no content iff it fails or the place that the path leads to held just that
text. -/
theorem contentAt?_save_iff (disk : Disk) (path : Path) (content : Bytes) :
    (∀ place, (disk.save path content).2.contentAt? place = disk.contentAt? place) ↔
      (disk.save path content).1.isOk = false ∨
        ∃ place, (disk.save path content).2.locate true path =
            .ok (.taken place (.file content)) ∧ disk.contentAt? place = some content := by
  rcases disk.save_cases path content with
    ⟨furnished, written, hfurnished, hwritten, -, hsave, hlocate⟩ |
      ⟨error, furnished, hfurnished, hsave⟩
  · have hput : ∀ place, (furnished.put written (.file content)).contentAt? place =
        if place = written then some content else furnished.contentAt? place :=
      fun place => Disk.contentAt?_put_file furnished content hwritten
    rw [hsave]
    constructor
    · intro hsame
      refine Or.inr ⟨written, hlocate, ?_⟩
      rw [← hsame, hput, if_pos rfl]
    · rintro (hfailed | ⟨place, hfound, hheld⟩) other
      · cases hfailed
      · -- the path leads to one place only, the one that is written
        have hplace : place = written := by
          rw [hlocate] at hfound
          exact (Spot.taken.inj (Except.ok.inj hfound)).1.symm
        rw [hput]
        split
        · next hother => rw [hother, ← hplace, hheld]
        · exact hfurnished.contentAt?
  · rw [hsave]
    exact iff_of_true (fun place => hfurnished.contentAt?) (Or.inl rfl)

/-! ## Runs over a directory -/

/-- Files by themselves of which none is done leave every content as it is. -/
theorem contentAt?_settleAll_of_none_done
    (h : ∀ result ∈ (settleAll false rules target files disk).1, result.2.isDone = false) :
    (settleAll false rules target files disk).2.contentAt? place = disk.contentAt? place := by
  induction files generalizing disk with
  | nil => rfl
  | cons file files ih =>
    have hfirst : (settled false rules target file disk).1.isDone = false :=
      h _ List.mem_cons_self
    obtain ⟨-, ⟨content, minified, written, hdone, -, -⟩ | ⟨-, hcontents⟩⟩ :=
      settled_cases rules target file disk
    · rw [hdone] at hfirst
      cases hfirst
    · exact (ih fun result hresult => h result (List.mem_cons_of_mem _ hresult)).trans
        (hcontents place)

/-- Files that are found are at least one. -/
theorem ne_nil_of_found {suffixes : List String} {directories outputs : List Path} {view : View}
    (h : found source suffixes directories outputs view = .ok (.ok files)) : files ≠ [] := by
  obtain ⟨scan, -, h⟩ := bind_eq_ok_iff.1 h
  cases scan with
  | none => cases h
  | some all =>
    obtain ⟨outputs, -, h⟩ := bind_eq_ok_iff.1 h
    obtain ⟨kept, -, h⟩ := bind_eq_ok_iff.1 h
    have h := Except.ok.inj h
    split at h
    · cases h
    · next hkept =>
      cases h
      simpa using hkept

theorem ne_nil_of_surveyed {view : View}
    (h : surveyed combine rules source output view = .ok (target, .ok files)) : files ≠ [] := by
  have hfind : ∀ {source target' : Path} {directories outputs : List Path},
      (do return (target', ← found source (suffixesOf rules) directories outputs view) :
        Except Failure (Path × Except String (List SourceFile))) = .ok (target, .ok files) →
        files ≠ [] := by
    intro source target' directories outputs h
    obtain ⟨result, hfound, h⟩ := bind_eq_ok_iff.1 h
    obtain ⟨-, rfl⟩ := Prod.mk.inj (Except.ok.inj h)
    exact ne_nil_of_found hfound
  obtain ⟨place, -, h⟩ := bind_eq_ok_iff.1 h
  cases combine with
  | true =>
    obtain ⟨beside, -, h⟩ := bind_eq_ok_iff.1 h
    cases output with
    | some output => exact hfind h
    | none =>
      obtain ⟨name, -, h⟩ := bind_eq_ok_iff.1 h
      exact hfind h
  | false =>
    cases output with
    | some output => exact hfind h
    | none =>
      obtain ⟨beside, -, h⟩ := bind_eq_ok_iff.1 h
      exact hfind h

/-- Under a rule set no file fails to be minified. -/
theorem attempt_ne_failed {rules : RuleSet} {file : SourceFile} :
    attempt (some rules) file disk ≠ .failed := by
  rw [attempt]
  cases disk.readProtected file.path with
  | error error => simp
  | ok bytes =>
    cases hmade : madeOf (some rules) file (Utf8.decode bytes) <;> simp [hmade]

/-- Without a rule set no file is left out. -/
theorem isSkipped_attempt_none {file : SourceFile} :
    (attempt none file disk).isSkipped = false := by
  rw [attempt]
  cases disk.readProtected file.path <;> rfl

theorem filterMap_minified_eq_nil {α : Type} {outcomes : List (SourceFile × Outcome)}
    (f : SourceFile → Text → α) (h : (outcomes.countP fun result => result.2.isDone) = 0) :
    (outcomes.filterMap fun (file, outcome) => outcome.minified?.map (f file)) = [] :=
  List.eq_nil_of_length_eq_zero ((length_filterMap_minified f outcomes).trans h)

/-- Where no file was minified, none is done. -/
theorem Counts.none_done {outcomes : List (SourceFile × Outcome)} (h : Counts outcomes summary)
    (hnone : summary.succeeded = 0) : (outcomes.countP fun result => result.2.isDone) = 0 :=
  Int.natCast_eq_zero.1 (h.succeeded.symm.trans hnone)

theorem Counts.total_pos (h : Counts (settleAll combine rules target files disk).1 summary)
    (hfiles : files ≠ []) : 0 < summary.total := by
  rw [h.total, length_settleAll_fst]
  exact Int.natCast_pos.2 (List.length_pos_iff.2 hfiles)

/-- A run under a rule set that writes its one file went well. -/
theorem ok_of_counts_combine {rules : RuleSet} (hfiles : files ≠ [])
    (hcounts : Counts (settleAll true (some rules) target files disk).1 summary)
    (herror : summary.error = none) : summary.ok = true := by
  have hfailed : summary.failed = 0 := by
    rw [hcounts.failed, countP_failed_combine, Int.natCast_eq_zero, List.countP_eq_zero]
    intro place _ hunread
    exact attempt_ne_failed (of_decide_eq_true hunread)
  refine (ok_iff (hcounts.total_pos hfiles)).2 ⟨herror, ?_⟩
  rw [Summary.failed] at hfailed
  omega

/-- Without a rule set every file that is not minified fails. -/
theorem failed_eq_total (hcounts : Counts (settleAll true none target files disk).1 summary)
    (hnone : summary.succeeded = 0) : summary.failed = summary.total := by
  have hskipped : summary.skipped = 0 := by
    rw [hcounts.skipped, settleAll_combine, Int.natCast_eq_zero, List.countP_eq_zero]
    intro result hresult
    obtain ⟨file, -, rfl⟩ := List.mem_map.1 hresult
    exact Bool.eq_false_iff.1 isSkipped_attempt_none
  rw [Summary.failed, hnone, hskipped, Int.sub_zero, Int.sub_zero]

/-- What a failed run over a directory writes, if anything, is one empty file. -/
theorem concluded_of_failed (hfiles : files ≠ [])
    (h : concluded combine rules target clock (settleAll combine rules target files disk) =
      .ok (summary, after)) (hok : summary.ok = false) (hnone : summary.succeeded = 0) :
    (summary.outputSize = none ∧ ∀ place, after.contentAt? place = disk.contentAt? place) ∨
      combine = true ∧ rules = none ∧ summary.error = none ∧
        summary.failed = summary.total ∧ 0 < summary.total ∧
        summary.outputPath = some target ∧ summary.outputSize = some 0 ∧
        (disk.save target []).1.isOk = true ∧ after = (disk.save target []).2 := by
  cases combine with
  | false =>
    have hdone := (written_of_concluded_separately h).1.none_done hnone
    cases h
    refine Or.inl ⟨rfl, fun place => contentAt?_settleAll_of_none_done fun result hresult => ?_⟩
    exact Bool.eq_false_iff.2 (List.countP_eq_zero.1 hdone result hresult)
  | true =>
    have hcounts := (written_of_concluded_together h).1
    have hdone := hcounts.none_done hnone
    have hdisk : (settleAll true rules target files disk).2 = disk := by
      rw [settleAll_combine]
    obtain ⟨bundle, hbundled, rfl, rfl⟩ := concluded_together_eq_ok_iff.1 h
    rw [hdisk] at hok hnone hcounts ⊢
    cases hsaved : (disk.save target (Utf8.encode bundle.text)).1.isOk with
    | false => exact Or.inl ⟨rfl, (contentAt?_save_iff disk target _).2 (Or.inl hsaved)⟩
    | true =>
      cases rules with
      | some rules =>
        -- under a rule set unread files are skipped, so this run did not fail
        rw [hsaved] at hok hcounts
        cases (ok_of_counts_combine hfiles hcounts rfl).symm.trans hok
      | none =>
        -- nothing was minified, so the bundle that was written is empty
        have hempty : bundle = Bundle.ofKinds [] := by
          rw [bundled, filterMap_minified_eq_nil
            (fun file text => (file.relative, file.kind, text)) hdone] at hbundled
          exact (Except.ok.inj hbundled).symm
        rw [hsaved] at hnone hcounts
        subst hempty
        exact Or.inr ⟨rfl, rfl, rfl, failed_eq_total hcounts hnone, hcounts.total_pos hfiles, rfl,
          rfl, hsaved, rfl⟩

/-! ## Any run -/

/-- A run over one file that does not count it as minified writes nothing. -/
theorem single_of_failed (hlog : s.log.file = none) (h : Gives (single source output) s summary t)
    (hnone : summary.succeeded = 0) :
    summary.outputSize = none ∧ ∀ place, t.disk.contentAt? place = s.disk.contentAt? place := by
  rcases single_cases hlog h with ⟨message, rfl, hstill, -⟩ |
    ⟨message, place, error, rfl, hstill, -, -⟩ |
      ⟨place, kind, bytes, -, -, -, -, hsummary, hdisk⟩
  · exact ⟨rfl, fun place => by rw [hstill.disk]⟩
  · exact ⟨rfl, fun place => by rw [hstill.disk]⟩
  · cases hsaved : (s.disk.save (targetOf place output)
        (Utf8.encode (minify kind (Utf8.decode bytes)))).1.isOk with
    | true =>
      rw [hsummary, hsaved] at hnone
      cases hnone
    | false =>
      refine ⟨by rw [hsummary, hsaved]; rfl, ?_⟩
      rw [hdisk]
      exact (contentAt?_save_iff s.disk _ _).2 (Or.inl hsaved)

/-- What a failed run writes, if anything, is one empty file: then it was to put all files into one,
without a rule set, and failed to read every one of them. -/
theorem failed_run_cases {plan : Plan} (hlog : s.log.file = none)
    (h : Gives plan.run s summary t) (hok : summary.ok = false) (hnone : summary.succeeded = 0) :
    (summary.outputSize = none ∧ ∀ place, t.disk.contentAt? place = s.disk.contentAt? place) ∨
      ∃ source output target, plan = .overDirectory true none source output ∧
        summary.error = none ∧ summary.failed = summary.total ∧ 0 < summary.total ∧
        summary.outputPath = some target ∧ summary.outputSize = some 0 ∧
        (s.disk.save target []).1.isOk = true ∧ t.disk = (s.disk.save target []).2 := by
  cases plan with
  | single source output =>
    rw [Plan.run] at h
    exact Or.inl (single_of_failed hlog h hnone)
  | overDirectory combine rules source output =>
    rw [Plan.run] at h
    rcases overDirectory_cases hlog h with
      ⟨target, u, ⟨message, -, rfl, hstill⟩ | ⟨files, hsurvey, -, hconcluded⟩⟩
    · exact Or.inl ⟨rfl, fun place => by rw [hstill.disk]⟩
    · have hfiles := ne_nil_of_surveyed ((reads_survey _ _ _ _).answer_eq hlog hsurvey)
      rcases concluded_of_failed hfiles hconcluded hok hnone with
        hkept | ⟨rfl, rfl, herror, hfailed, htotal, hpath, hsize, hsaved, hafter⟩
      · exact Or.inl hkept
      · exact Or.inr ⟨source, output, target, rfl, herror, hfailed, htotal, hpath, hsize, hsaved,
          hafter⟩

/-- A run that reports a failure and no minified file leaves every file as it is, and adds none,
unless it writes a file although it could read none: then it leaves them exactly if an empty file
stood where it writes. -/
theorem failed_run_leaves_files_iff {request : Request} (hlog : s.log.file = none)
    (h : Gives (process request) s summary t) (hok : summary.ok = false)
    (hnone : summary.succeeded = 0) :
    ((∀ place, t.disk.contentAt? place = s.disk.contentAt? place) ↔
        summary.outputSize = none ∨ ∃ path place, summary.outputPath = some path ∧
          t.disk.locate true path = .ok (.taken place (.file [])) ∧
            s.disk.contentAt? place = some []) ∧
      (summary.outputSize ≠ none → request.combine = true ∧ summary.error = none ∧
        summary.failed = summary.total ∧ 0 < summary.total ∧
          ∃ path, summary.outputPath = some path ∧ t.disk.read path = .ok []) := by
  rw [process_eq_planOf] at h
  obtain ⟨plan, u, hplan, hrun⟩ := gives_bind_iff.1 h
  obtain ⟨hlog', hdisk, rules', source', output', isDirectory, hchoose⟩ :=
    disk_of_gives_planOf hlog hplan
  rw [← hdisk]
  rcases failed_run_cases hlog' hrun hok hnone with ⟨hsize, hkept⟩ |
    ⟨source, output, target, hover, herror, hfailed, htotal, hpath, hsize, hsaved, hafter⟩
  · exact ⟨iff_of_true hkept (Or.inl hsize), fun hwritten => absurd hsize hwritten⟩
  · have hcombine : request.combine = true := by
      rw [hover] at hchoose
      cases isDirectory with
      | true => exact (Plan.overDirectory.inj hchoose).1.symm
      | false => cases hchoose
    constructor
    · rw [hafter, contentAt?_save_iff, hsaved, hpath, hsize]
      simp
    · intro _
      refine ⟨hcombine, herror, hfailed, htotal, target, hpath, ?_⟩
      rcases u.disk.save_cases target [] with
        ⟨furnished, written, -, -, -, hsave, hlocate⟩ | ⟨error, furnished, -, hsave⟩
      · rw [hafter, hsave]
        exact Disk.read_eq_ok_iff.2 ⟨written, hlocate⟩
      · rw [hsave] at hsaved
        cases hsaved

/-! ## An earlier bundle -/

/-- A session whose only source file cannot be read, with the combined file of an earlier run. -/
def afterBundle (content : Bytes) : Session where
  disk := {
    entries := [
      (["src"], .directory), (["src", "a.js"], .file [97, 32, 59]), (["all.js"], .file content)]
    workingDirectory := []
    home := ⟨.root, ["home"]⟩
    unreadable := [["src", "a.js"]] }
  clock := ⟨2024, 1, 1, 0, 0, 0⟩
  settings := some { root := ⟨.root, []⟩ }

/-- The request for that combined file. -/
def bundleRequest : Request where
  source := ⟨.root, ["src"]⟩
  output := some ⟨.root, ["all.js"]⟩
  combine := true

/-- A failed run leaves all files as they are when the earlier combined file was empty. -/
theorem failed_run_leaves_an_empty_bundle :
    ∃ summary t, Gives (process bundleRequest) (afterBundle []) summary t ∧ summary.ok = false ∧
      summary.succeeded = 0 ∧ summary.failed = summary.total ∧
        ∀ place, t.disk.contentAt? place = (afterBundle []).disk.contentAt? place := by
  have hrun : ((process bundleRequest).run (afterBundle [])).1 =
      .ok {
        total := 1, outputPath := some ⟨.root, ["all.js"]⟩, outputSize := some 0 } := by
    decide +kernel
  have hlocate : ((process bundleRequest).run (afterBundle [])).2.disk.locate true
      ⟨.root, ["all.js"]⟩ = .ok (.taken ["all.js"] (.file [])) := by
    decide +kernel
  have hgives := gives_of_run hrun
  obtain ⟨hfiles, hwritten⟩ := failed_run_leaves_files_iff rfl hgives rfl rfl
  exact ⟨_, _, hgives, rfl, rfl, (hwritten (by decide)).2.2.1,
    hfiles.2 (Or.inr ⟨_, ["all.js"], rfl, hlocate, by decide +kernel⟩)⟩

/-- The only source file cannot be read: the run fails, minifies nothing, and puts an empty file in
the place of an earlier combined file. -/
theorem failed_run_empties_a_bundle :
    ((process bundleRequest).run (afterBundle [103, 111, 111, 100])).1.map tally =
        .ok (0, 1, false) ∧
      (afterBundle [103, 111, 111, 100]).disk.contentAt? ["all.js"] = some [103, 111, 111, 100] ∧
      ((process bundleRequest).run (afterBundle [103, 111, 111, 100])).2.disk.contentAt?
        ["all.js"] = some [] := by
  decide +kernel

end Run

end Minifier
