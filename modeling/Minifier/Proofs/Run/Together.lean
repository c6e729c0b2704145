import Minifier.Proofs.Run.Beside
import Minifier.Proofs.Run.Bundling
import Minifier.Proofs.Run.Mirror
import Minifier.Proofs.Run.Rerun

/-!
# Files by themselves and files in one

A directory of a tree is gone over in two ways: each file is written by itself, or all files go into
one. When no write fails, both ways find the same files and make the same of each of them, and the
one file is put together from the outputs that the first way leaves
(`Run.both_ways_agree`).
-/

set_option autoImplicit false

namespace Minifier

namespace Run

open Discovery Job

variable {rules : Option RuleSet} {source target : Path} {file : SourceFile}
  {files : List SourceFile} {disk : Disk} {base place : Location} {omissions : Omissions}
  {turn : SourceFile × Disk} {clock : Stamp} {view : View} {request : Request} {settings : Settings}
  {s : Session}

/-! ## Writes -/

/-- The writes of a run over a directory: the disk that each one finds, its path and its content. -/
def writesOf (combine : Bool) (rules : Option RuleSet) (target : Path) (clock : Stamp)
    (files : List SourceFile) (disk : Disk) : List (Disk × Path × Bytes) :=
  if combine then
    match bundled rules clock (settleAll true rules target files disk).1 with
    | .ok bundle => [(disk, target, Utf8.encode bundle.text)]
    | .error _ => []
  else
    (inTurn false rules target files disk).filterMap fun turn =>
      (due rules turn.1 turn.2).map fun content => (turn.2, outputOf target turn.1, content)

/-- No write fails of a run over a directory whose output is not given. -/
def NoWriteFails (combine : Bool) (rules : Option RuleSet) (source : Path) (view : View) : Prop :=
  ∀ target files, surveyed combine rules source none view = .ok (target, .ok files) →
    ∀ write ∈ writesOf combine rules target view.clock files view.disk,
      (write.1.save write.2.1 write.2.2).1.isOk = true

/-- The outputs of files, as a disk holds them. -/
def outputsOn (disk : Disk) (target : Path) (files : List SourceFile) : List Output :=
  files.filterMap fun file => (disk.read (outputOf target file)).toOption.map (Prod.mk file)

/-- The files that a run makes something of. -/
def filesDue (rules : Option RuleSet) (disk : Disk) (files : List SourceFile) : List SourceFile :=
  files.filter fun file => (due rules file disk).isSome

/-! ## Files in turn -/

section Turns

variable (htree : disk.IsTree) (htarget : target.IsClean)
  (hskipped : disk.locationOf target ∈ omissions.directories)
  (houtside : ¬ disk.locationOf target <+: base)
  (hfiles : ∀ file ∈ files, ∃ names, IsSource disk omissions base file names)
  (hwrites : ∀ write ∈ writesOf false rules target clock files disk,
    (write.1.save write.2.1 write.2.2).1.isOk = true)

include htree htarget hskipped houtside hfiles hwrites

/-- Every file that is due is delivered when its turn comes. -/
theorem isDelivered_eq_isSome_due (hturn : turn ∈ inTurn false rules target files disk) :
    isDelivered rules target disk turn = (due rules turn.1 disk).isSome := by
  have hattempt := attempt_of_mem_inTurn htree htarget hskipped houtside hfiles hturn
  have hdue : due rules turn.1 turn.2 = due rules turn.1 disk := by
    rw [due_eq, due_eq, hattempt]
  rw [isDelivered]
  cases hcontent : due rules turn.1 disk with
  | none => rfl
  | some content =>
    -- what is due is one of the writes, on the disk that its turn finds
    refine hwrites (turn.2, outputOf target turn.1, content) ?_
    rw [writesOf, if_neg Bool.false_ne_true]
    exact List.mem_filterMap.2 ⟨turn, hturn, by rw [hdue, hcontent]; rfl⟩

/-- Every file becomes what it becomes when all files go into one. -/
theorem settleAll_fst_of_writes : (settleAll false rules target files disk).1 =
    files.map fun file => (file, attempt rules file disk) := by
  have hmap : files.map (fun file => (file, attempt rules file disk)) =
      (inTurn false rules target files disk).map fun turn =>
        (turn.1, attempt rules turn.1 disk) := by
    conv_lhs => rw [← map_fst_inTurn false rules target files disk]
    rw [List.map_map]
    rfl
  rw [settleAll_fst, hmap]
  refine List.map_congr_left fun turn hturn => ?_
  have hattempt := attempt_of_mem_inTurn htree htarget hskipped houtside hfiles hturn
  have hdelivered :=
    isDelivered_eq_isSome_due htree htarget hskipped houtside hfiles hwrites hturn
  -- earlier writes change nothing that is read, and the write of this turn does not fail
  have hsettled : settled false rules target turn.1 turn.2 =
      delivery target turn.1 (attempt rules turn.1 disk) turn.2 := by
    rw [← hattempt]
    rfl
  rw [settledIn, hsettled]
  rw [isDelivered, due_eq] at hdelivered
  cases houtcome : attempt rules turn.1 disk with
  | skipped => rfl
  | failed => rfl
  | done content minified =>
    rw [houtcome] at hdelivered
    exact congrArg (Prod.mk turn.1) (if_pos hdelivered)

/-- The outputs that are left are those of the files that are due. -/
theorem read_of_mem_filesDue (hfile : file ∈ filesDue rules disk files) :
    ∃ content, due rules file disk = some content ∧
      (settleAll false rules target files disk).2.read (outputOf target file) = .ok content := by
  obtain ⟨hmem, hdue⟩ := List.mem_filter.1 hfile
  rw [← map_fst_inTurn false rules target files disk] at hmem
  obtain ⟨turn, hturn, rfl⟩ := List.mem_map.1 hmem
  refine read_of_isDelivered htree htarget hskipped houtside hfiles hturn ?_
  rw [isDelivered_eq_isSome_due htree htarget hskipped houtside hfiles hwrites hturn, hdue]

theorem outputsOn_settleAll :
    outputsOn (settleAll false rules target files disk).2 target (filesDue rules disk files) =
      writtenAs (minifiedOf (files.map fun file => (file, attempt rules file disk))) := by
  have hdue : writtenAs (minifiedOf (files.map fun file => (file, attempt rules file disk))) =
      files.filterMap fun file => (due rules file disk).map (Prod.mk file) := by
    rw [writtenAs, minifiedOf, List.filterMap_map, List.map_filterMap]
    refine List.filterMap_congr fun file _ => ?_
    rw [due_eq, Function.comp_apply, Option.map_map, Option.map_map]
    rfl
  rw [hdue, outputsOn, filesDue, List.filterMap_filter]
  refine List.filterMap_congr fun file hfile => ?_
  cases hcontent : due rules file disk with
  | none => simp
  | some content =>
    obtain ⟨content', hdue', hread⟩ :=
      read_of_mem_filesDue htree htarget hskipped houtside hfiles hwrites
        (List.mem_filter.2 ⟨hfile, by rw [hcontent]; rfl⟩)
    cases hcontent.symm.trans hdue'
    simp [hread, Except.toOption]

end Turns

/-! ## One file for all -/

theorem eq_cleaned_of_madeOf {set : RuleSet} {content minified : Text}
    (h : madeOf (some set) file content = some minified) :
    minified = cleaned set.cleanup (minify set.kind content) := by
  have h : (evaluate set (minify set.kind) file.relative content).value = some minified := h
  rw [evaluate, Logged.value_bind] at h
  split at h
  · exact (Option.some.inj h).symm
  · cases h

theorem exists_madeOf_of_attempt {content minified : Text}
    (h : attempt rules file disk = .done content minified) :
    ∃ bytes, madeOf rules file (Utf8.decode bytes) = some minified := by
  rw [attempt] at h
  cases hbytes : disk.readProtected file.path with
  | error error =>
    simp only [hbytes] at h
    split at h <;> cases h
  | ok bytes =>
    simp only [hbytes] at h
    cases hmade : madeOf rules file (Utf8.decode bytes) with
    | none =>
      simp only [hmade] at h
      cases h
    | some made =>
      simp only [hmade] at h
      cases h
      exact ⟨bytes, hmade⟩

/-- What rules for Laravel make of a file has no blank but the space, whatever lists they have. -/
theorem isTidy_of_attempt {set : RuleSet} {content minified : Text} {g : Glyph}
    (hset : DiffersInLists Laravel.rules set)
    (h : attempt (some set) file disk = .done content minified) (hg : g ∈ minified) : g.IsTidy := by
  obtain ⟨including, excluding, cleanup, groups, rfl⟩ := hset
  obtain ⟨bytes, hmade⟩ := exists_madeOf_of_attempt h
  rw [eq_cleaned_of_madeOf hmade] at hg
  exact Php.isTidy_minify (cleaned_subset _ _ hg)

theorem exists_bundled (hrules : ∀ set, rules = some set → DiffersInLists Laravel.rules set)
    (clock : Stamp) (outcomes : List (SourceFile × Outcome)) :
    ∃ bundle, bundled rules clock outcomes = .ok bundle := by
  cases rules with
  | none => exact ⟨_, rfl⟩
  | some set =>
    obtain ⟨including, excluding, cleanup, groups, rfl⟩ := hrules set rfl
    exact ⟨_, rfl⟩

/-- What goes into the one file is put together from what each file by itself is written as. -/
theorem encode_text_of_attempts {bundle : Bundle}
    (hrules : ∀ set, rules = some set → DiffersInLists Laravel.rules set)
    (h : bundled rules clock (files.map fun file => (file, attempt rules file disk)) = .ok bundle) :
    Utf8.encode bundle.text = combinedBytes Utf8.readBytewise rules clock
      (writtenAs (minifiedOf (files.map fun file => (file, attempt rules file disk)))) := by
  refine encode_text_of_bundled (fun set hset => ?_) h
  refine ⟨(hrules set hset).stripPrefix_eq, fun file text hmem g hg => ?_⟩
  obtain ⟨⟨file', outcome⟩, hresult, hminified⟩ := List.mem_filterMap.1 hmem
  obtain ⟨minified, hdone, hfile⟩ := Option.map_eq_some_iff.1 hminified
  cases hfile
  obtain ⟨content, rfl⟩ := minified?_eq_some_iff.1 hdone
  obtain ⟨other, -, hother⟩ := List.mem_map.1 hresult
  obtain ⟨rfl, hattempt⟩ := Prod.mk.inj hother
  rw [hset] at hattempt
  exact isTidy_of_attempt (hrules set hset) hattempt hg

/-! ## Runs over a directory -/

/-- Two summaries with the same counters. -/
structure CountAlike (summary summary' : Summary) : Prop where
  total : summary'.total = summary.total
  succeeded : summary'.succeeded = summary.succeeded
  skipped : summary'.skipped = summary.skipped
  failed : summary'.failed = summary.failed
  bytesSaved : summary'.bytesSaved = summary.bytesSaved

/-- One file is put together from the outputs of files that are written by themselves, as `read`
reads them. -/
structure PutTogether (read : Bytes → Text) (rules : Option RuleSet) (clock : Stamp)
    (target path : Path) (files : List SourceFile) (separate together : Disk) : Prop where
  outputs : ∀ file ∈ files, ∃ content, separate.read (outputOf target file) = .ok content
  text : together.read path =
    .ok (combinedBytes read rules clock (outputsOn separate target files))

variable {u : Session} {result : Except String (List SourceFile)}

/-- A survey that finds no files ends a run with its message. -/
theorem exists_gives_of_surveyed_error {combine : Bool} {output : Option Path} {message : String}
    (hlog : s.log.file = none)
    (h : surveyed combine rules source output s.view = .ok (target, .error message)) :
    ∃ t, Gives (overDirectory combine rules source output) s { error := some message } t := by
  obtain ⟨u, hsurvey, -⟩ := (reads_survey combine rules source output).steady hlog h
  obtain ⟨summary, t, hgives⟩ := exists_gives_overDirectory_of_error hlog hsurvey
  obtain ⟨rfl, -⟩ := eq_of_gives_overDirectory_of_error hlog hsurvey hgives
  exact ⟨t, hgives⟩

/-- A run that writes each file by itself beside its source counts what becomes of the files on the
disk that it begins with, and leaves the outputs of those that are due. -/
theorem Begins.exists_gives_separately (h : Begins s.view source place) (htree : s.disk.IsTree)
    (hlog : s.log.file = none) (hplace : place.getLast? ≠ some outputName)
    (hsurveyed : surveyed false rules source none s.view = .ok (outputBeside place, .ok files))
    (hwrites : NoWriteFails false rules source s.view) :
    ∃ t, Gives (overDirectory false rules source none) s
        { Summary.ofOutcomes (files.map fun file => (file, attempt rules file s.disk)) with
          outputPath := some (outputBeside place) } t ∧
      (∀ file ∈ filesDue rules s.disk files, ∃ content,
        t.disk.read (outputOf (outputBeside place) file) = .ok content) ∧
      outputsOn t.disk (outputBeside place) (filesDue rules s.disk files) =
        writtenAs (minifiedOf (files.map fun file => (file, attempt rules file s.disk))) := by
  have htarget : (outputBeside place).IsClean := isClean_of_besideOf htree h.besideOf_eq
  obtain ⟨-, omissions, hskipped, hfiles⟩ :=
    exists_omissions_of_surveyed htree h.clean h.expanded hsurveyed
  have houtside := h.not_outputBeside_prefix htree hplace
  have hwrites := hwrites _ _ hsurveyed
  have houtcomes := settleAll_fst_of_writes htree htarget hskipped houtside hfiles hwrites
  obtain ⟨t, hgives, hdisk⟩ := exists_gives_of_surveyed htree hlog h.clean hsurveyed (rfl :
    concluded false rules (outputBeside place) s.clock
      (settleAll false rules (outputBeside place) files s.disk) = .ok _)
  rw [houtcomes] at hgives
  refine ⟨t, hgives, ?_⟩
  rw [hdisk]
  refine ⟨fun file hfile => ?_, outputsOn_settleAll htree htarget hskipped houtside
    hfiles hwrites⟩
  obtain ⟨content, -, hread⟩ :=
    read_of_mem_filesDue htree htarget hskipped houtside hfiles hwrites hfile
  exact ⟨content, hread⟩

/-- A run that puts all files into one counts the same, and the one is put together from what the
files by themselves are written as. -/
theorem exists_gives_together (htree : s.disk.IsTree) (hlog : s.log.file = none)
    (hsource : source.IsClean)
    (hrules : ∀ set, rules = some set → DiffersInLists Laravel.rules set)
    (hsurveyed : surveyed true rules source none s.view = .ok (target, .ok files))
    (hwrites : NoWriteFails true rules source s.view) :
    ∃ summary t, Gives (overDirectory true rules source none) s summary t ∧
      CountAlike (Summary.ofOutcomes (files.map fun file => (file, attempt rules file s.disk)))
        summary ∧
      summary.outputPath = some target ∧ t.disk.read target =
        .ok (combinedBytes Utf8.readBytewise rules s.clock
          (writtenAs (minifiedOf (files.map fun file => (file, attempt rules file s.disk))))) := by
  obtain ⟨bundle, hbundled⟩ := exists_bundled hrules s.clock
    (files.map fun file => (file, attempt rules file s.disk))
  -- the one file is among the writes of the run, and none of these fails
  have hsaved : (s.disk.save target (Utf8.encode bundle.text)).1.isOk = true := by
    refine hwrites _ _ hsurveyed (s.disk, target, Utf8.encode bundle.text) ?_
    have hbundled' : bundled rules s.view.clock (settleAll true rules target files s.view.disk).1 =
        .ok bundle := by
      rw [settleAll_combine]
      exact hbundled
    rw [writesOf, if_pos rfl, hbundled']
    exact List.mem_cons_self
  obtain ⟨t, hgives, hdisk⟩ := exists_gives_of_surveyed htree hlog hsource hsurveyed (by
    rw [settleAll_combine]
    exact concluded_together_eq_ok_iff.2 ⟨bundle, hbundled, rfl, rfl⟩)
  rw [hsaved] at hgives
  refine ⟨_, t, hgives, ⟨rfl, rfl, rfl, rfl, rfl⟩, rfl, ?_⟩
  rw [hdisk, Disk.read_of_save hsaved, encode_text_of_attempts hrules hbundled]

/-- Both ways to go over a directory count the same, and the one file is put together from the
outputs of the files by themselves, as `read` reads them. -/
structure WaysAgree (read : Bytes → Text) (rules : Option RuleSet) (source : Path)
    (place : Location) (s t t' : Session) (summary summary' : Summary) : Prop where
  counts : CountAlike summary summary'
  together : ∀ files,
    surveyed false rules source none s.view = .ok (outputBeside place, .ok files) →
      summary.outputPath = some (outputBeside place) ∧ ∃ path, summary'.outputPath = some path ∧
        PutTogether read rules s.clock (outputBeside place) path (filesDue rules s.disk files)
          t.disk t'.disk

/-- Both ways to go over a directory of a tree agree when no write fails. -/
theorem Begins.ways_agree (h : Begins s.view source place) (htree : s.disk.IsTree)
    (hplace : place.getLast? ≠ some outputName)
    (hrules : ∀ set, rules = some set → DiffersInLists Laravel.rules set)
    (hwrites : ∀ combine, NoWriteFails combine rules source s.view) {u u' : Session}
    (hstill : s.Still u) (hstill' : s.Still u') :
    ∃ summary t summary' t',
      Gives (overDirectory false rules source none) u summary t ∧
        Gives (overDirectory true rules source none) u' summary' t' ∧
          WaysAgree Utf8.readBytewise rules source place s t t' summary summary' := by
  have hnames : ∀ set, rules = some set → IsFileName set.combinedName := by
    intro set hset
    rw [(hrules set hset).combinedName_eq]
    decide
  obtain ⟨target, result, result', hsurveyed, hsurveyed', hsame⟩ :=
    h.surveyed_beside htree hplace hnames
  have hview := hstill.view_eq
  have hview' := hstill'.view_eq
  cases result with
  | error message =>
    -- no files are found, and each way ends with the message of its survey
    cases result' with
    | ok files => cases (hsame files).1 rfl
    | error message' =>
      obtain ⟨t, hgives⟩ := exists_gives_of_surveyed_error hstill.log (hview ▸ hsurveyed)
      obtain ⟨t', hgives'⟩ := exists_gives_of_surveyed_error hstill'.log (hview' ▸ hsurveyed')
      refine ⟨_, t, _, t', hgives, hgives', ⟨rfl, rfl, rfl, rfl, rfl⟩, fun files hfiles => ?_⟩
      cases hsurveyed.symm.trans hfiles
  | ok files =>
    -- both ways find these files, and what each does is told on the disk that both begin with
    cases (hsame files).2 rfl
    obtain ⟨t, hgives, hreads, houtputs⟩ := Begins.exists_gives_separately (hview ▸ h)
      (hstill.disk ▸ htree) hstill.log hplace (hview ▸ hsurveyed) (hview ▸ hwrites false)
    obtain ⟨summary', t', hgives', hcounts, hpath, htext⟩ := exists_gives_together
      (hstill'.disk ▸ htree) hstill'.log h.clean hrules (hview' ▸ hsurveyed')
      (hview' ▸ hwrites true)
    rw [hstill.disk] at hgives hreads houtputs
    rw [hstill'.disk] at hcounts
    rw [hstill'.disk, hstill'.clock, ← houtputs] at htext
    refine ⟨_, t, summary', t', hgives, hgives',
      ⟨hcounts.total, hcounts.succeeded, hcounts.skipped, hcounts.failed, hcounts.bytesSaved⟩,
      fun files' hfiles => ?_⟩
    cases hsurveyed.symm.trans hfiles
    exact ⟨rfl, target, hpath, hreads, htext⟩

/-! ## Requests -/

theorem differsInLists_of_rulesNamed {framework : Option String} {set : RuleSet}
    (h : rulesNamed settings framework = .ok (some set)) : DiffersInLists Laravel.rules set := by
  obtain ⟨rules, hrules, hdiffers⟩ := exists_builtIn_of_rulesNamed h
  rwa [List.mem_singleton.1 hrules] at hdiffers

/-- Over a directory of a tree that is not named like the output, under settings without an output
and with or without rules, both ways give a summary when no write fails. They have the same
counters, and the one file holds what the outputs of the files by themselves hold: kind after kind
behind their labels, or group after group behind the header, less the opening tag that is found
among their bytes. -/
theorem both_ways_agree (htree : s.disk.IsTree) (hlog : s.log.file = none)
    (hsettings : s.settings = some settings) (hrequest : request.output = none)
    (hdefault : settings.output = none) (hrequested : request.source.IsClean)
    (hsource : s.disk.expandHome request.source = .ok source)
    (hdirectory : s.disk.isDirectory? source = .ok true)
    (hname : (s.disk.locationOf source).getLast? ≠ some outputName)
    (hrules : rulesNamed settings request.framework = .ok rules)
    (hwrites : ∀ combine, NoWriteFails combine rules source s.view) :
    ∃ summary t summary' t',
      Gives (process { request with combine := false }) s summary t ∧
        Gives (process { request with combine := true }) s summary' t' ∧
          WaysAgree Utf8.readBytewise rules source (s.disk.locationOf source) s t t' summary
            summary' := by
  obtain ⟨place, hplace⟩ := Disk.isDirectory?_eq_true_iff.1 hdirectory
  have hbegins : Begins s.view source place :=
    ⟨htree.isLinkedTree, Disk.isClean_of_expandHome htree.home_isClean hrequested hsource,
      Disk.expandHome_of_expandHome htree.home_isAbsolute hsource, hplace⟩
  have hlocation := hbegins.locationOf_eq htree
  obtain rfl : s.disk.locationOf source = place := hlocation
  have hover : directoryNamed rules source s.view = .ok true := by
    cases rules with
    | some set => rfl
    | none => exact mapError_eq_ok_iff.2 hdirectory
  -- making a plan changes nothing that the run then depends on
  have hplans : ∀ combine, ∃ u, Gives (planOf { request with combine }) s
      (.overDirectory combine rules source none) u ∧ s.Still u := by
    intro combine
    refine steady_planOf hlog hsettings hsource (planned_overDirectory_iff.2
      ⟨rfl, rfl, ?_, hrules, hover⟩)
    rw [outputNamed.eq_def, hrequest, hdefault]
  obtain ⟨u, hplan, hstill⟩ := hplans false
  obtain ⟨u', hplan', hstill'⟩ := hplans true
  obtain ⟨summary, t, summary', t', hgives, hgives', hagree⟩ := hbegins.ways_agree htree hname
    (fun set hset => differsInLists_of_rulesNamed (hset ▸ hrules)) hwrites hstill hstill'
  rw [process_eq_planOf, process_eq_planOf]
  exact ⟨summary, t, summary', t', gives_bind_iff.2 ⟨_, u, hplan, hgives⟩,
    gives_bind_iff.2 ⟨_, u', hplan', hgives'⟩, hagree⟩

/-! ## Bytes that a comment keeps apart -/

/-- The rules for Laravel with lists that keep the files of `apartBytes`, and change nothing. -/
def keptRules : RuleSet :=
  { Laravel.rules with
    including := Laravel.table ["a"], excluding := [], cleanup := [], groups := [] }

/-- A session on one file in PHP. Behind its opening tag stand the two bytes of a blank, but a
comment keeps them apart. -/
def apartBytes : Session where
  disk := {
    entries := [
      (["src"], .directory),
      (["src", "a.php"], .file [60, 63, 112, 104, 112, 32, 194, 47, 42, 42, 47, 160, 32, 120])]
    workingDirectory := []
    home := ⟨.root, ["home"]⟩ }
  clock := ⟨2024, 1, 1, 0, 0, 0⟩
  settings := some {
    root := ⟨.root, []⟩
    rules := [("laravel", {
      including := some ["a"], excluding := some [], cleanup := some [], groups := some [] })] }

/-- The request to go over the directory of that file. -/
def apartRequest : Request where
  source := ⟨.root, ["src"]⟩
  framework := some "laravel"

theorem surveyed_apartBytes (combine : Bool) :
    surveyed combine (some keptRules) ⟨.root, ["src"]⟩ none apartBytes.view =
      .ok (if combine then ⟨.root, ["minified", "combined.laravel.php"]⟩ else ⟨.root, ["minified"]⟩,
        .ok [⟨⟨.root, ["src", "a.php"]⟩, "a.php", .php⟩]) := by
  cases combine <;> decide +kernel

theorem noWriteFails_apartBytes (combine : Bool) :
    NoWriteFails combine (some keptRules) ⟨.root, ["src"]⟩ apartBytes.view := by
  intro target files hsurveyed
  cases hsurveyed.symm.trans (surveyed_apartBytes combine)
  cases combine <;> decide +kernel

/-- Both ways agree on that file: in the one file its text begins with the two bytes. -/
theorem bytes_kept_apart_agree :
    ∃ summary t summary' t', Gives (process { apartRequest with combine := false }) apartBytes
        summary t ∧
      Gives (process { apartRequest with combine := true }) apartBytes summary' t' ∧
        WaysAgree Utf8.readBytewise (some keptRules) ⟨.root, ["src"]⟩
          (apartBytes.disk.locationOf ⟨.root, ["src"]⟩) apartBytes t t' summary summary' :=
  both_ways_agree (by decide +kernel) rfl rfl rfl rfl (by decide) (by decide +kernel)
    (by decide +kernel) (by decide +kernel) rfl noWriteFails_apartBytes

/-- When the output of that file is read as a text, the two bytes are a blank in it, and would be
stripped with the opening tag. They are not: the text that was minified has no such blank. -/
theorem bytes_kept_apart_are_no_blank :
    apartBytes.disk.IsTree ∧
      (∀ combine, NoWriteFails combine (some keptRules) ⟨.root, ["src"]⟩ apartBytes.view) ∧
      ∃ summary t summary' t', Gives (process { apartRequest with combine := false }) apartBytes
          summary t ∧
        Gives (process { apartRequest with combine := true }) apartBytes summary' t' ∧
          ¬ WaysAgree Utf8.decode (some keptRules) ⟨.root, ["src"]⟩ ["src"] apartBytes t t' summary
            summary' := by
  have hrun : ((process { apartRequest with combine := false }).run apartBytes).1 = .ok {
      total := 1, succeeded := 1, bytesSaved := 4, outputPath := some ⟨.root, ["minified"]⟩ } := by
    decide +kernel
  have hrun' : ((process { apartRequest with combine := true }).run apartBytes).1 = .ok {
      total := 1, succeeded := 1, bytesSaved := 4
      outputPath := some ⟨.root, ["minified", "combined.laravel.php"]⟩
      outputSize := some 129, groupCounts := [("other", 1)] } := by
    decide +kernel
  have hne : ((process { apartRequest with combine := true }).run apartBytes).2.disk.read
        ⟨.root, ["minified", "combined.laravel.php"]⟩ ≠
      .ok (combinedBytes Utf8.decode (some keptRules) apartBytes.clock
        (outputsOn ((process { apartRequest with combine := false }).run apartBytes).2.disk
          ⟨.root, ["minified"]⟩ (filesDue (some keptRules) apartBytes.disk
            [⟨⟨.root, ["src", "a.php"]⟩, "a.php", .php⟩]))) := by
    decide +kernel
  refine ⟨by decide +kernel, noWriteFails_apartBytes, _, _, _, _, gives_of_run hrun,
    gives_of_run hrun', fun hagree => ?_⟩
  obtain ⟨-, path, hpath, -, htext⟩ := hagree.together _ (surveyed_apartBytes false)
  cases hpath
  exact hne htext

end Run

end Minifier
