import Minifier.Proofs.Disk.Refusal
import Minifier.Proofs.Run.Handling

/-!
# What all files become

Files are settled one after another: each finds the disk that the one before it leaves
(`Run.inTurn`), and becomes what that disk makes of it. Handling all files gives just what settling
them gives (`Run.eq_of_gives_handleAll`), and so a run over a directory is known from its survey on:
its outcomes, its summary and the disk that it leaves follow from the disk that it finds
(`Run.eq_of_gives_overDirectory`). It also gives a summary whenever its survey finds files at proper
paths (`Run.exists_gives_overDirectory`).
-/

set_option autoImplicit false

namespace Minifier

namespace Run

open Job

variable {combine : Bool} {rules : Option RuleSet} {source target : Path} {output : Option Path}
  {file : SourceFile} {files : List SourceFile} {outcomes : List (SourceFile × Outcome)}
  {summary result : Summary} {text : Text} {s t u : Session} {disk : Disk}

/-! ## Files in turn -/

/-- Files, each with the disk that it finds when its turn comes. -/
def inTurn (combine : Bool) (rules : Option RuleSet) (target : Path) :
    List SourceFile → Disk → List (SourceFile × Disk)
  | [], _ => []
  | file :: files, disk =>
    (file, disk) :: inTurn combine rules target files (settled combine rules target file disk).2

/-- What files become in turn, and the disk that the last one leaves. -/
def settleAll (combine : Bool) (rules : Option RuleSet) (target : Path) :
    List SourceFile → Disk → List (SourceFile × Outcome) × Disk
  | [], disk => ([], disk)
  | file :: files, disk =>
    let first := settled combine rules target file disk
    let rest := settleAll combine rules target files first.2
    ((file, first.1) :: rest.1, rest.2)

/-- What a file becomes in its turn. -/
def settledIn (combine : Bool) (rules : Option RuleSet) (target : Path)
    (place : SourceFile × Disk) : SourceFile × Outcome :=
  (place.1, (settled combine rules target place.1 place.2).1)

theorem settleAll_fst (combine : Bool) (rules : Option RuleSet) (target : Path)
    (files : List SourceFile) (disk : Disk) :
    (settleAll combine rules target files disk).1 =
      (inTurn combine rules target files disk).map (settledIn combine rules target) := by
  induction files generalizing disk with
  | nil => rfl
  | cons file files ih =>
    rw [settleAll, inTurn, List.map_cons, ← ih]
    rfl

theorem map_fst_inTurn (combine : Bool) (rules : Option RuleSet) (target : Path)
    (files : List SourceFile) (disk : Disk) :
    (inTurn combine rules target files disk).map Prod.fst = files := by
  induction files generalizing disk with
  | nil => rfl
  | cons file files ih => rw [inTurn, List.map_cons, ih]

theorem length_settleAll_fst (combine : Bool) (rules : Option RuleSet) (target : Path)
    (files : List SourceFile) (disk : Disk) :
    (settleAll combine rules target files disk).1.length = files.length := by
  rw [settleAll_fst, List.length_map, ← List.length_map Prod.fst, map_fst_inTurn]

/-- Files that all go into one leave the disk alone, and each finds it as the first does. -/
theorem settleAll_combine (rules : Option RuleSet) (target : Path) (files : List SourceFile)
    (disk : Disk) :
    settleAll true rules target files disk =
      (files.map fun file => (file, attempt rules file disk), disk) := by
  induction files with
  | nil => rfl
  | cons file files ih =>
    rw [settleAll]
    show ((file, attempt rules file disk) :: (settleAll true rules target files disk).1,
      (settleAll true rules target files disk).2) = _
    rw [ih, List.map_cons]

theorem inTurn_combine (rules : Option RuleSet) (target : Path) (files : List SourceFile)
    (disk : Disk) : inTurn true rules target files disk = files.map fun file => (file, disk) := by
  induction files with
  | nil => rfl
  | cons file files ih =>
    rw [inTurn]
    show (file, disk) :: inTurn true rules target files disk = _
    rw [ih, List.map_cons]

/-! ## What settling does to the disk -/

/-- A file that is settled by itself has its text at one place and no other content changes, or it
is not done and no content changes. -/
theorem settled_cases (rules : Option RuleSet) (target : Path) (file : SourceFile) (disk : Disk) :
    disk.Grows (settled false rules target file disk).2 ∧
      ((∃ content minified written,
          (settled false rules target file disk).1 = .done content minified ∧
            (settled false rules target file disk).2.locate true (outputOf target file) =
              .ok (.taken written (.file (Utf8.encode minified))) ∧
            ∀ place, (settled false rules target file disk).2.contentAt? place =
              if place = written then some (Utf8.encode minified) else disk.contentAt? place) ∨
        (settled false rules target file disk).1.isDone = false ∧
          ∀ place, (settled false rules target file disk).2.contentAt? place =
            disk.contentAt? place) := by
  have hsettled : settled false rules target file disk =
      delivery target file (attempt rules file disk) disk := rfl
  rw [hsettled]
  -- only a minified text is saved, and that changes one content or none
  cases attempt rules file disk with
  | skipped => exact ⟨.refl disk, Or.inr ⟨rfl, fun _ => rfl⟩⟩
  | failed => exact ⟨.refl disk, Or.inr ⟨rfl, fun _ => rfl⟩⟩
  | done content minified =>
    rw [delivery]
    rcases disk.save_cases (outputOf target file) (Utf8.encode minified) with
      ⟨furnished, written, hfurnished, hwritten, halike, hsave, hlocate⟩ |
        ⟨error, furnished, hfurnished, hsave⟩
    · rw [hsave]
      refine ⟨hfurnished.grows.trans (Disk.grows_put hwritten halike),
        Or.inl ⟨content, minified, written, rfl, hlocate, fun place => ?_⟩⟩
      rw [Disk.contentAt?_put_file furnished _ hwritten, hfurnished.contentAt?]
    · rw [hsave]
      exact ⟨hfurnished.grows, Or.inr ⟨rfl, fun _ => hfurnished.contentAt?⟩⟩

theorem grows_settleAll (rules : Option RuleSet) (target : Path) (files : List SourceFile)
    (disk : Disk) : disk.Grows (settleAll false rules target files disk).2 := by
  induction files generalizing disk with
  | nil => exact .refl disk
  | cons file files ih => exact (settled_cases rules target file disk).1.trans (ih _)

/-! ## Handling in turn -/

/-- A turn is taken by every file that has a proper path, and a proper path to be written to. -/
theorem exists_gives_handling (rules : Option RuleSet) (hlog : s.log.file = none)
    (hread : Disk.hasNull file.path = false)
    (hwrite : combine = false → Disk.hasNull (outputOf target file) = false) :
    ∃ t,
      Gives (handling combine rules target file) s (settled combine rules target file s.disk).1 t ∧
      s.Abides t ∧ t.disk = (settled combine rules target file s.disk).2 := by
  obtain ⟨u, hminify, hstill⟩ := steady_minifyFile rules hlog
    fun _ => Disk.isFromDisk_of_readProtected hread
  cases combine with
  | true => exact ⟨u, hminify, hstill.toAbides, hstill.disk⟩
  | false =>
    obtain ⟨t, hdeliver, habides, hdisk⟩ := exists_gives_deliver target file
      (attempt rules file s.disk) hstill.log
      fun _ _ _ _ => Disk.isFromDisk_of_save (hwrite rfl)
    rw [hstill.disk] at hdeliver hdisk
    exact ⟨t, gives_bind_iff.2 ⟨_, u, hminify, hdeliver⟩, hstill.toAbides.trans habides, hdisk⟩

theorem eq_of_gives_turn {turned : SourceFile × Outcome} (hlog : s.log.file = none)
    (h : Gives (turn (handling combine rules target) file) s turned t) :
    turned = (file, (settled combine rules target file s.disk).1) ∧ s.Abides t ∧
      t.disk = (settled combine rules target file s.disk).2 := by
  obtain ⟨outcome, u, hhandle, h⟩ := gives_bind_iff.1 h
  obtain ⟨_, v, hadvance, h⟩ := gives_bind_iff.1 h
  obtain ⟨rfl, rfl⟩ := gives_pure_iff.1 h
  obtain ⟨rfl, habides, hdisk⟩ := eq_of_gives_handling hlog hhandle
  have hstill := ((steady_advance habides.log _).unique hadvance).2
  exact ⟨rfl, habides.trans hstill.toAbides, hstill.disk.trans hdisk⟩

theorem exists_gives_turn (rules : Option RuleSet) (hlog : s.log.file = none)
    (hread : Disk.hasNull file.path = false)
    (hwrite : combine = false → Disk.hasNull (outputOf target file) = false) :
    ∃ turned t, Gives (turn (handling combine rules target) file) s turned t := by
  obtain ⟨u, hhandle, habides, -⟩ := exists_gives_handling rules hlog hread hwrite
  obtain ⟨v, hadvance, -⟩ := steady_advance habides.log file.path.name
  exact ⟨_, v, gives_bind_iff.2 ⟨_, u, hhandle,
    gives_bind_iff.2 ⟨(), v, hadvance, gives_pure_iff.2 ⟨rfl, rfl⟩⟩⟩⟩

theorem eq_of_gives_mapM_turn (hlog : s.log.file = none)
    (h : Gives (files.mapM (turn (handling combine rules target))) s outcomes t) :
    outcomes = (settleAll combine rules target files s.disk).1 ∧ s.Abides t ∧
      t.disk = (settleAll combine rules target files s.disk).2 := by
  induction files generalizing s outcomes with
  | nil =>
    rw [List.mapM_nil] at h
    obtain ⟨rfl, rfl⟩ := gives_pure_iff.1 h
    exact ⟨rfl, ⟨rfl, rfl, rfl, hlog⟩, rfl⟩
  | cons file files ih =>
    rw [List.mapM_cons] at h
    obtain ⟨turned, u, hturn, h⟩ := gives_bind_iff.1 h
    obtain ⟨rest, v, hrest, h⟩ := gives_bind_iff.1 h
    obtain ⟨rfl, rfl⟩ := gives_pure_iff.1 h
    obtain ⟨rfl, habides, hdisk⟩ := eq_of_gives_turn hlog hturn
    obtain ⟨rfl, habides', hdisk'⟩ := ih habides.log hrest
    rw [settleAll, ← hdisk]
    exact ⟨rfl, habides.trans habides', hdisk'⟩

theorem exists_gives_mapM_turn (rules : Option RuleSet) (hlog : s.log.file = none)
    (hread : ∀ file ∈ files, Disk.hasNull file.path = false)
    (hwrite : combine = false → ∀ file ∈ files, Disk.hasNull (outputOf target file) = false) :
    ∃ outcomes t, Gives (files.mapM (turn (handling combine rules target))) s outcomes t := by
  induction files generalizing s with
  | nil => exact ⟨[], s, by rw [List.mapM_nil]; exact gives_pure_iff.2 ⟨rfl, rfl⟩⟩
  | cons file files ih =>
    obtain ⟨turned, u, hturn⟩ := exists_gives_turn rules hlog
      (hread file List.mem_cons_self) fun hcombine => hwrite hcombine file List.mem_cons_self
    obtain ⟨outcomes, v, hrest⟩ := ih (eq_of_gives_turn hlog hturn).2.1.log
      (fun other hother => hread other (List.mem_cons_of_mem _ hother))
      fun hcombine other hother => hwrite hcombine other (List.mem_cons_of_mem _ hother)
    refine ⟨turned :: outcomes, v, ?_⟩
    rw [List.mapM_cons]
    exact gives_bind_iff.2 ⟨turned, u, hturn,
      gives_bind_iff.2 ⟨outcomes, v, hrest, gives_pure_iff.2 ⟨rfl, rfl⟩⟩⟩

/-- Handling all files gives what settling them gives. -/
theorem eq_of_gives_handleAll (hlog : s.log.file = none)
    (h : Gives (handleAll (handling combine rules target) files) s outcomes t) :
    outcomes = (settleAll combine rules target files s.disk).1 ∧ s.Abides t ∧
      t.disk = (settleAll combine rules target files s.disk).2 := by
  obtain ⟨_, u, hstart, h⟩ := gives_bind_iff.1 h
  obtain ⟨turned, v, hmap, h⟩ := gives_bind_iff.1 h
  obtain ⟨_, w, hfinish, h⟩ := gives_bind_iff.1 h
  obtain ⟨rfl, rfl⟩ := gives_pure_iff.1 h
  have hbegin := ((steady_startMeter hlog _).unique hstart).2
  obtain ⟨rfl, habides, hdisk⟩ := eq_of_gives_mapM_turn hbegin.log hmap
  have hend := ((steady_finishMeter habides.log).unique hfinish).2
  rw [hbegin.disk] at hdisk ⊢
  exact ⟨rfl, (hbegin.toAbides.trans habides).trans hend.toAbides, hend.disk.trans hdisk⟩

theorem exists_gives_handleAll (rules : Option RuleSet) (hlog : s.log.file = none)
    (hread : ∀ file ∈ files, Disk.hasNull file.path = false)
    (hwrite : combine = false → ∀ file ∈ files, Disk.hasNull (outputOf target file) = false) :
    ∃ outcomes t, Gives (handleAll (handling combine rules target) files) s outcomes t := by
  obtain ⟨u, hstart, hbegin⟩ := steady_startMeter hlog files.length
  obtain ⟨outcomes, v, hmap⟩ :=
    exists_gives_mapM_turn rules hbegin.log hread hwrite
  obtain ⟨w, hfinish, -⟩ := steady_finishMeter (eq_of_gives_mapM_turn hbegin.log hmap).2.1.log
  exact ⟨outcomes, w, gives_bind_iff.2 ⟨(), u, hstart, gives_bind_iff.2 ⟨outcomes, v, hmap,
    gives_bind_iff.2 ⟨(), w, hfinish, gives_pure_iff.2 ⟨rfl, rfl⟩⟩⟩⟩⟩

/-! ## The last stage -/

/-- What minified files are put together to, at a time. -/
def bundled (rules : Option RuleSet) (clock : Stamp) (outcomes : List (SourceFile × Outcome)) :
    Except MissingTemplate Bundle :=
  match rules with
  | none =>
    .ok (Bundle.ofKinds (outcomes.filterMap fun (file, outcome) =>
      outcome.minified?.map fun text => (file.relative, file.kind, text)))
  | some rules =>
    (header [] rules clock).map fun header =>
      Bundle.ofGroups rules.groups (Text.ofString header) rules.stripPrefix
        (outcomes.filterMap fun (file, outcome) =>
          outcome.minified?.map fun text => (file.relative, text))

/-- A summary when the combined file was written, or could not be. -/
def reported (summary : Summary) (output : Path) (text : Text) (written : Bool) : Summary :=
  if written then { summary with outputPath := some output, outputSize := some text.byteSize }
  else { summary with error := some ("Failed to write combined file: " ++ output.toString) }

/-- The summary of all outcomes, and the disk with what is written for all of them. -/
def concluded (combine : Bool) (rules : Option RuleSet) (target : Path) (clock : Stamp)
    (settled : List (SourceFile × Outcome) × Disk) : Except MissingTemplate (Summary × Disk) :=
  if combine then
    (bundled rules clock settled.1).map fun bundle =>
      let counts := bundle.counts.map fun (name, count) => (name, (count : Int))
      let saved := settled.2.save target (Utf8.encode bundle.text)
      (reported { Summary.ofOutcomes settled.1 with groupCounts := counts } target bundle.text
        saved.1.isOk, saved.2)
  else .ok ({ Summary.ofOutcomes settled.1 with outputPath := some target }, settled.2)

/-- All files going into one, they are put together to a bundle and the bundle is saved. -/
theorem concluded_together_eq_ok_iff {clock : Stamp} {after : Disk} :
    concluded true rules target clock (outcomes, disk) = .ok (summary, after) ↔
      ∃ bundle, bundled rules clock outcomes = .ok bundle ∧
        reported { Summary.ofOutcomes outcomes with
          groupCounts := bundle.counts.map fun (name, count) => (name, (count : Int)) }
          target bundle.text (disk.save target (Utf8.encode bundle.text)).1.isOk = summary ∧
        (disk.save target (Utf8.encode bundle.text)).2 = after := by
  rw [concluded, if_pos rfl, map_eq_ok_iff]
  simp only [Prod.mk.injEq]

theorem bundled_of_gives_bundle {found : Bundle} (h : Gives (bundle rules outcomes) s found t) :
    bundled rules s.clock outcomes = .ok found ∧ t = s := by
  cases rules with
  | none =>
    obtain ⟨rfl, rfl⟩ := gives_pure_iff.1 h
    exact ⟨rfl, rfl⟩
  | some rules =>
    have h := gives_get_bind_iff.1 h
    rw [bundled]
    cases hheader : header [] rules s.clock with
    | error missing =>
      simp only [hheader] at h
      exact absurd h not_gives_throw
    | ok written =>
      simp only [hheader] at h
      obtain ⟨rfl, rfl⟩ := gives_pure_iff.1 h
      exact ⟨rfl, rfl⟩

theorem gives_bundle_of_bundled {found : Bundle} (h : bundled rules s.clock outcomes = .ok found) :
    Gives (bundle rules outcomes) s found s := by
  cases rules with
  | none =>
    cases h
    exact gives_pure_iff.2 ⟨rfl, rfl⟩
  | some rules =>
    refine gives_get_bind_iff.2 ?_
    rw [bundled] at h
    cases hheader : header [] rules s.clock with
    | error missing =>
      rw [hheader] at h
      cases h
    | ok written =>
      rw [hheader] at h
      cases h
      exact gives_pure_iff.2 ⟨rfl, rfl⟩

theorem exists_gives_writeCombined (summary : Summary) (hlog : s.log.file = none)
    (h : ∀ error, (s.disk.save target (Utf8.encode text)).1 = .error error →
      error.isFromDisk = true) :
    ∃ t, Gives (writeCombined summary target text) s
        (reported summary target text (s.disk.save target (Utf8.encode text)).1.isOk) t ∧
      s.Abides t ∧ t.disk = (s.disk.save target (Utf8.encode text)).2 := by
  obtain ⟨u, hwrite, habides, hdisk⟩ := exists_gives_write hlog h
  cases hsaved : (s.disk.save target (Utf8.encode text)).1.isOk with
  | true =>
    rw [hsaved] at hwrite
    obtain ⟨v, hnote, hstill⟩ := steady_note habides.log .info
      ("Combined " ++ toString summary.succeeded ++ " files into " ++ target.toString)
    exact ⟨v, gives_bind_iff.2 ⟨true, u, hwrite,
        gives_bind_iff.2 ⟨(), v, hnote, gives_pure_iff.2 ⟨rfl, rfl⟩⟩⟩,
      habides.trans hstill.toAbides, hstill.disk.trans hdisk⟩
  | false =>
    rw [hsaved] at hwrite
    exact ⟨u, gives_bind_iff.2 ⟨false, u, hwrite, gives_pure_iff.2 ⟨rfl, rfl⟩⟩, habides, hdisk⟩

theorem eq_of_gives_writeCombined (hlog : s.log.file = none)
    (h : Gives (writeCombined summary target text) s result t) :
    result = reported summary target text (s.disk.save target (Utf8.encode text)).1.isOk ∧
      s.Abides t ∧ t.disk = (s.disk.save target (Utf8.encode text)).2 := by
  obtain ⟨written, u, hwrite, -⟩ := gives_bind_iff.1 h
  obtain ⟨v, hgives, habides, hdisk⟩ :=
    exists_gives_writeCombined summary hlog (isFromDisk_of_gives_write hwrite)
  obtain ⟨rfl, rfl⟩ := h.unique hgives
  exact ⟨rfl, habides, hdisk⟩

theorem eq_of_gives_conclude (hlog : s.log.file = none)
    (h : Gives (conclude combine rules target outcomes) s summary t) :
    s.Abides t ∧ concluded combine rules target s.clock (outcomes, s.disk) =
      .ok (summary, t.disk) := by
  cases combine with
  | false =>
    obtain ⟨_, u, hnote, h⟩ := gives_bind_iff.1 h
    obtain ⟨rfl, rfl⟩ := gives_pure_iff.1 h
    have hstill := (reads_note _ _).still hlog hnote
    exact ⟨hstill.toAbides, by rw [hstill.disk]; rfl⟩
  | true =>
    obtain ⟨found, u, hbundle, hwrite⟩ := gives_bind_iff.1 h
    obtain ⟨hbundled, rfl⟩ := bundled_of_gives_bundle hbundle
    obtain ⟨rfl, habides, hdisk⟩ := eq_of_gives_writeCombined hlog hwrite
    exact ⟨habides, concluded_together_eq_ok_iff.2 ⟨found, hbundled, rfl, hdisk.symm⟩⟩

theorem exists_gives_conclude (rules : Option RuleSet)
    (outcomes : List (SourceFile × Outcome)) (hlog : s.log.file = none)
    (htarget : combine = true → Disk.hasNull target = false)
    (h : (concluded combine rules target s.clock (outcomes, s.disk)).isOk = true) :
    ∃ summary t, Gives (conclude combine rules target outcomes) s summary t := by
  cases combine with
  | false =>
    obtain ⟨t, hnote, -⟩ := steady_note hlog .info
      (directoryReport rules { Summary.ofOutcomes outcomes with outputPath := some target } target)
    exact ⟨_, t, gives_bind_iff.2 ⟨(), t, hnote, gives_pure_iff.2 ⟨rfl, rfl⟩⟩⟩
  | true =>
    cases hbundled : bundled rules s.clock outcomes with
    | error missing =>
      rw [concluded, hbundled] at h
      cases h
    | ok found =>
      obtain ⟨t, hwrite, -⟩ := exists_gives_writeCombined
        { Summary.ofOutcomes outcomes with
          groupCounts := found.counts.map fun (name, count) => (name, (count : Int)) }
        hlog fun _ => Disk.isFromDisk_of_save (htarget rfl)
      exact ⟨_, t, gives_bind_iff.2 ⟨found, s, gives_bundle_of_bundled hbundled, hwrite⟩⟩

/-! ## A run over a directory -/

/-- A survey without files ends a run with its message. -/
theorem eq_of_gives_overDirectory_of_error {message : String} (hlog : s.log.file = none)
    (hsurvey : Gives (survey combine rules source output) s (target, .error message) u)
    (h : Gives (overDirectory combine rules source output) s summary t) :
    summary = { error := some message } ∧ s.Still t := by
  rw [overDirectory_eq_stages] at h
  obtain ⟨found, v, hsurvey', h⟩ := gives_bind_iff.1 h
  obtain ⟨rfl, rfl⟩ := hsurvey'.unique hsurvey
  have hstill := (reads_survey _ _ _ _).still hlog hsurvey
  have hrefused := (reads_refuse message).still hstill.log h
  obtain ⟨_, w, -, h⟩ := gives_bind_iff.1 h
  exact ⟨(gives_pure_iff.1 h).1, hstill.trans hrefused⟩

theorem exists_gives_overDirectory_of_error {message : String} (hlog : s.log.file = none)
    (hsurvey : Gives (survey combine rules source output) s (target, .error message) u) :
    ∃ summary t, Gives (overDirectory combine rules source output) s summary t := by
  have hstill := (reads_survey _ _ _ _).still hlog hsurvey
  obtain ⟨t, hnote, -⟩ := steady_note hstill.log .error message
  refine ⟨{ error := some message }, t, ?_⟩
  rw [overDirectory_eq_stages]
  exact gives_bind_iff.2 ⟨_, u, hsurvey,
    gives_bind_iff.2 ⟨(), t, hnote, gives_pure_iff.2 ⟨rfl, rfl⟩⟩⟩

/-- What a run over a directory reports, and the disk that it leaves, follow from the files that its
survey finds and from the disk that it finds them on. -/
theorem eq_of_gives_overDirectory (hlog : s.log.file = none)
    (hsurvey : Gives (survey combine rules source output) s (target, .ok files) u)
    (h : Gives (overDirectory combine rules source output) s summary t) :
    s.Abides t ∧ concluded combine rules target s.clock
      (settleAll combine rules target files s.disk) = .ok (summary, t.disk) := by
  rw [overDirectory_eq_stages] at h
  obtain ⟨found, v, hsurvey', h⟩ := gives_bind_iff.1 h
  obtain ⟨rfl, rfl⟩ := hsurvey'.unique hsurvey
  have hstill := (reads_survey _ _ _ _).still hlog hsurvey
  obtain ⟨outcomes, w, hhandle, h⟩ := gives_bind_iff.1 h
  obtain ⟨rfl, habides, hdisk⟩ := eq_of_gives_handleAll hstill.log hhandle
  obtain ⟨habides', hconcluded⟩ := eq_of_gives_conclude habides.log h
  refine ⟨(hstill.toAbides.trans habides).trans habides', ?_⟩
  rw [habides.clock, hstill.clock, hdisk, hstill.disk] at hconcluded
  exact hconcluded

/-- A run over a directory ends with the message of its survey, or with what settling the files that
it finds comes to. -/
theorem overDirectory_cases (hlog : s.log.file = none)
    (h : Gives (overDirectory combine rules source output) s summary t) :
    ∃ target u,
      (∃ message, Gives (survey combine rules source output) s (target, .error message) u ∧
        summary = { error := some message } ∧ s.Still t) ∨
      ∃ files, Gives (survey combine rules source output) s (target, .ok files) u ∧
        s.Abides t ∧ concluded combine rules target s.clock
          (settleAll combine rules target files s.disk) = .ok (summary, t.disk) := by
  have hstages := h
  rw [overDirectory_eq_stages] at hstages
  obtain ⟨⟨target, found⟩, u, hsurvey, -⟩ := gives_bind_iff.1 hstages
  refine ⟨target, u, ?_⟩
  cases found with
  | error message =>
    exact Or.inl ⟨message, hsurvey, eq_of_gives_overDirectory_of_error hlog hsurvey h⟩
  | ok files => exact Or.inr ⟨files, hsurvey, eq_of_gives_overDirectory hlog hsurvey h⟩

/-- A run whose survey finds files at proper paths gives a summary. -/
theorem exists_gives_overDirectory (hlog : s.log.file = none)
    (hsurvey : Gives (survey combine rules source output) s (target, .ok files) u)
    (hread : ∀ file ∈ files, Disk.hasNull file.path = false)
    (hwrite : combine = false → ∀ file ∈ files, Disk.hasNull (outputOf target file) = false)
    (htarget : combine = true → Disk.hasNull target = false)
    (hconcluded : (concluded combine rules target s.clock
      (settleAll combine rules target files s.disk)).isOk = true) :
    ∃ summary t, Gives (overDirectory combine rules source output) s summary t := by
  have hstill := (reads_survey _ _ _ _).still hlog hsurvey
  obtain ⟨outcomes, v, hhandle⟩ := exists_gives_handleAll rules hstill.log hread hwrite
  obtain ⟨rfl, habides, hdisk⟩ := eq_of_gives_handleAll hstill.log hhandle
  rw [hstill.disk] at hhandle hdisk
  obtain ⟨summary, t, hconclude⟩ := exists_gives_conclude rules
    (settleAll combine rules target files s.disk).1 habides.log htarget (by
      rw [habides.clock, hstill.clock, hdisk]
      exact hconcluded)
  refine ⟨summary, t, ?_⟩
  rw [overDirectory_eq_stages]
  exact gives_bind_iff.2 ⟨_, u, hsurvey, gives_bind_iff.2 ⟨_, v, hhandle, hconclude⟩⟩

end Run

end Minifier
