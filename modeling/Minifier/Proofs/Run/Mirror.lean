import Minifier.Proofs.Run.Apart

/-!
# Mirrored files

A run that writes each file by itself mirrors its source: every file that is found, can be read and
is not rejected has its minified text at its relative path below the output, unless it could not be
saved there, and nothing else changes, though the output may lie inside the source
(`Run.directory_mirrors_source`).
-/

set_option autoImplicit false

namespace Minifier

namespace Run

open Discovery Job

variable {rules : Option RuleSet} {source target place : Path} {output : Option Path}
  {file : SourceFile} {files : List SourceFile} {disk : Disk} {base : Location}
  {omissions : Omissions} {bytes : Bytes} {turn : SourceFile × Disk} {summary : Summary}
  {s t u : Session}

/-! ## What is due -/

/-- What the output of a file should hold: the encoded text that minifying makes of its content, if
it can be read and no rule set rejects it. -/
def due (rules : Option RuleSet) (file : SourceFile) (disk : Disk) : Option Bytes :=
  (disk.readProtected file.path).toOption.bind fun bytes =>
    (madeOf rules file (Utf8.decode bytes)).map Utf8.encode

/-- Whether a file is due by the disk that a run begins with, and can be saved in its turn. -/
def isDelivered (rules : Option RuleSet) (target : Path) (disk : Disk)
    (turn : SourceFile × Disk) : Bool :=
  match due rules turn.1 disk with
  | some bytes => (turn.2.save (outputOf target turn.1) bytes).1.isOk
  | none => false

theorem due_eq (rules : Option RuleSet) (file : SourceFile) (disk : Disk) :
    due rules file disk = (attempt rules file disk).minified?.map Utf8.encode := by
  rw [due, attempt]
  cases disk.readProtected file.path with
  | error error => cases rules <;> rfl
  | ok bytes =>
    cases hmade : madeOf rules file (Utf8.decode bytes) with
    | none => simp [Except.toOption, hmade, Outcome.minified?]
    | some minified => simp [Except.toOption, hmade, Outcome.minified?]

/-- A file is done in its turn exactly when it is delivered, if the run has not changed what becomes
of it before. -/
theorem isDone_settled_iff (h : attempt rules turn.1 turn.2 = attempt rules turn.1 disk) :
    (settled false rules target turn.1 turn.2).1.isDone = isDelivered rules target disk turn := by
  have hsettled : settled false rules target turn.1 turn.2 =
      delivery target turn.1 (attempt rules turn.1 turn.2) turn.2 := rfl
  rw [hsettled, isDelivered, due_eq, h]
  cases attempt rules turn.1 disk with
  | skipped => rfl
  | failed => rfl
  | done content minified =>
    simp only [delivery, Outcome.minified?, Option.map_some]
    cases (turn.2.save (outputOf target turn.1) (Utf8.encode minified)).1.isOk <;> rfl

/-! ## Surveys -/

/-- What a survey of a tree finds are files that nothing leaves out, each of them once, and it skips
its output. -/
theorem exists_omissions_of_surveyed {view : View} (htree : view.disk.IsTree)
    (hsource : source.IsClean) (hplace : view.disk.expandHome source = .ok place)
    (h : surveyed false rules source output view = .ok (target, .ok files)) :
    files.Nodup ∧ ∃ omissions : Omissions, view.disk.locationOf target ∈ omissions.directories ∧
      ∀ file ∈ files, ∃ names,
        IsSource view.disk omissions (view.disk.locationOf place) file names := by
  obtain ⟨expanded, directories, skipped, hexpand, hplaced, hfound⟩ := surveyed_eq_ok_iff.1 h
  cases hplace.symm.trans hexpand
  obtain ⟨rfl, -⟩ := placed_separately hplaced
  have hclean := Disk.isClean_of_expandHome htree.home_isClean hsource hplace
  obtain ⟨hnodup, hfiles⟩ := isSource_of_found htree hclean
    (Disk.expandHome_of_expandHome htree.home_isAbsolute hplace) hfound
  exact ⟨hnodup, omissionsOf [target] view, by simp [omissionsOf],
    fun file hfile => (hfiles file hfile).2⟩

/-! ## Files in turn -/

section Turns

variable (htree : disk.IsTree) (htarget : target.IsClean)
  (hskipped : disk.locationOf target ∈ omissions.directories)
  (houtside : ¬ disk.locationOf target <+: base)
  (hfiles : ∀ file ∈ files, ∃ names, IsSource disk omissions base file names)

include htree htarget hskipped houtside hfiles

/-- Every file finds its own content when its turn comes. -/
theorem attempt_of_mem_inTurn (hturn : turn ∈ inTurn false rules target files disk) :
    attempt rules turn.1 turn.2 = attempt rules turn.1 disk := by
  have hfile : turn.1 ∈ files := by
    rw [← map_fst_inTurn false rules target files disk]
    exact List.mem_map_of_mem hturn
  obtain ⟨names, hnames⟩ := hfiles turn.1 hfile
  exact attempt_of_keeps htree hnames (keeps_of_mem_inTurn htree htarget hturn)
    (elsewhere_of_admits htree htarget hskipped houtside hfiles hnames.admitted)

/-- What a file that is done was made into is what minifying makes of its content. -/
theorem attempt_of_mem_settleAll {content minified : Text}
    (h : (file, .done content minified) ∈ (settleAll false rules target files disk).1) :
    file ∈ files ∧ attempt rules file disk = .done content minified := by
  rw [settleAll_fst] at h
  obtain ⟨turn, hturn, hsettled⟩ := List.mem_map.1 h
  obtain ⟨rfl, houtcome⟩ := Prod.mk.inj hsettled
  refine ⟨?_, ?_⟩
  · rw [← map_fst_inTurn false rules target files disk]
    exact List.mem_map_of_mem hturn
  · rw [← attempt_of_mem_inTurn htree htarget hskipped houtside hfiles hturn]
    have hdelivery : (delivery target turn.1 (attempt rules turn.1 turn.2) turn.2).1 =
        .done content minified := houtcome
    cases hattempt : attempt rules turn.1 turn.2 with
    | skipped =>
      rw [hattempt] at hdelivery
      exact hdelivery
    | failed =>
      rw [hattempt] at hdelivery
      exact hdelivery
    | done content' minified' =>
      rw [hattempt] at hdelivery
      simp only [delivery] at hdelivery
      split at hdelivery
      · exact hdelivery
      · cases hdelivery

/-- Files that are written to one place hold one text. -/
theorem agree_settleAll :
    ∀ first ∈ (settleAll false rules target files disk).1,
      ∀ second ∈ (settleAll false rules target files disk).1,
        Agree target (settleAll false rules target files disk).2 first second := by
  rintro ⟨file, outcome⟩ hfirst ⟨other, outcome'⟩ hsecond minified minified' hminified hminified'
    hsame
  obtain ⟨content, rfl⟩ := minified?_eq_some_iff.1 hminified
  obtain ⟨content', rfl⟩ := minified?_eq_some_iff.1 hminified'
  obtain ⟨hfile, hattempt⟩ :=
    attempt_of_mem_settleAll htree htarget hskipped houtside hfiles hfirst
  obtain ⟨hother, hattempt'⟩ :=
    attempt_of_mem_settleAll htree htarget hskipped houtside hfiles hsecond
  obtain ⟨names, hnames⟩ := hfiles file hfile
  obtain ⟨names', hnames'⟩ := hfiles other hother
  -- both are led to one place, so they are one file
  obtain ⟨place, bytes, -, hlocate⟩ := exists_holdsText_of_done hfirst
  have hkeeps := keeps_settleAll htree htarget rules files
  have hplace := hkeeps.isTree.eq_locationOf (isClean_outputOf htarget file) hlocate
  have hplace' := hkeeps.isTree.eq_locationOf (isClean_outputOf htarget other) (hsame ▸ hlocate)
  rw [hkeeps.grows.locationOf htree hkeeps.isTree (isClean_outputOf htarget _)] at hplace hplace'
  obtain rfl := hnames.eq_of_locationOf_eq htree htarget hnames' (hplace.symm.trans hplace')
  rw [hattempt] at hattempt'
  cases hattempt'
  rfl

/-- What was delivered is in its place in the end. -/
theorem read_of_isDelivered (hturn : turn ∈ inTurn false rules target files disk)
    (h : isDelivered rules target disk turn = true) :
    ∃ bytes, due rules turn.1 disk = some bytes ∧
      (settleAll false rules target files disk).2.read (outputOf target turn.1) = .ok bytes := by
  have hattempt := attempt_of_mem_inTurn htree htarget hskipped houtside hfiles hturn
  rw [← isDone_settled_iff hattempt] at h
  have hmem : settledIn false rules target turn ∈ (settleAll false rules target files disk).1 := by
    rw [settleAll_fst]
    exact List.mem_map_of_mem hturn
  cases houtcome : (settled false rules target turn.1 turn.2).1 with
  | skipped =>
    rw [houtcome] at h
    cases h
  | failed =>
    rw [houtcome] at h
    cases h
  | done content minified =>
    rw [settledIn, houtcome] at hmem
    refine ⟨Utf8.encode minified, ?_, (forall_isWritten_iff rules target files disk).2
      (agree_settleAll htree htarget hskipped houtside hfiles) _ hmem minified rfl⟩
    rw [due_eq, (attempt_of_mem_settleAll htree htarget hskipped houtside hfiles hmem).2]
    rfl

/-- The files that are done are those that are delivered. -/
theorem countP_isDone_settleAll :
    ((settleAll false rules target files disk).1.countP fun result => result.2.isDone) =
      (inTurn false rules target files disk).countP (isDelivered rules target disk) := by
  rw [settleAll_fst, List.countP_map]
  refine List.countP_congr fun turn hturn => ?_
  rw [Function.comp_apply, settledIn, isDone_settled_iff
    (attempt_of_mem_inTurn htree htarget hskipped houtside hfiles hturn)]

end Turns

/-! ## Runs -/

/-- The files that a survey has found. -/
def filesFound (found : Except String (List SourceFile)) : List SourceFile :=
  found.toOption.getD []

/-- A run that writes each file of a tree by itself, to an output that is neither the source nor
above it, changes no file but those at the relative paths of the files that it finds below the
output. Each of them that can be read and is not rejected holds the encoded minified text of its
content there, unless it could not be saved, and the run counts just these as minified. -/
theorem directory_mirrors_source (htree : s.disk.IsTree) (hlog : s.log.file = none)
    (hsource : source.IsClean) (houtput : ∀ path, output = some path → path.IsClean)
    (hplace : s.disk.expandHome source = .ok place) {found : Except String (List SourceFile)}
    (hsurvey : Gives (survey false rules source output) s (target, found) u)
    (h : Gives (directory rules source output) s summary t)
    (houtside : ¬ s.disk.locationOf target <+: s.disk.locationOf place) :
    (∀ other, (∀ file ∈ filesFound found, other ≠ s.disk.locationOf (outputOf target file)) →
        t.disk.contentAt? other = s.disk.contentAt? other) ∧
      (filesFound found).Nodup ∧
      (∀ turn ∈ inTurn false rules target (filesFound found) s.disk,
        isDelivered rules target s.disk turn = true →
          ∃ bytes, due rules turn.1 s.disk = some bytes ∧
            t.disk.read (outputOf target turn.1) = .ok bytes) ∧
      summary.succeeded = (inTurn false rules target (filesFound found) s.disk).countP
        (isDelivered rules target s.disk) := by
  have h : Gives (overDirectory false rules source output) s summary t := h
  cases found with
  | error message =>
    obtain ⟨rfl, hstill⟩ := eq_of_gives_overDirectory_of_error hlog hsurvey h
    refine ⟨fun other _ => by rw [hstill.disk], List.nodup_nil, fun turn hturn => ?_, rfl⟩
    cases hturn
  | ok files =>
    have hsurveyed := (reads_survey false rules source output).answer_eq hlog hsurvey
    have htarget := isClean_of_surveyed htree houtput (fun hfalse => by cases hfalse) hsurveyed
    obtain ⟨hnodup, omissions, hskipped, hfiles⟩ :=
      exists_omissions_of_surveyed htree hsource hplace hsurveyed
    obtain ⟨-, hconcluded⟩ := eq_of_gives_overDirectory hlog hsurvey h
    have hsucceeded := (written_of_concluded_separately hconcluded).1.succeeded
    obtain ⟨-, hdisk⟩ := Prod.mk.inj (Except.ok.inj hconcluded)
    rw [← hdisk]
    refine ⟨fun other hother => ?_, hnodup, fun turn hturn hdelivered => ?_, ?_⟩
    · exact (keeps_settleAll htree htarget rules files).contentAt? other hother
    · exact read_of_isDelivered htree htarget hskipped houtside hfiles hturn hdelivered
    · rw [hsucceeded, countP_isDone_settleAll htree htarget hskipped houtside hfiles]
      rfl

/-! ## An output inside the source -/

/-- The file of `oneFile` is mirrored in a directory inside its own, and stays as it is itself. -/
theorem output_inside_mirrors_source :
    (oneFile "a.js" false).disk.IsTree ∧ ∃ summary t,
      Gives (directory none ⟨.root, ["src"]⟩ (some ⟨.root, ["src", "out"]⟩)) (oneFile "a.js" false)
          summary t ∧
        t.disk.contentAt? ["src", "a.js"] = some [97, 32, 59] ∧
          t.disk.read ⟨.root, ["src", "out", "a.js"]⟩ = .ok [97, 59] ∧ summary.succeeded = 1 := by
  have htree : (oneFile "a.js" false).disk.IsTree := by decide +kernel
  have hplace : (oneFile "a.js" false).disk.expandHome ⟨.root, ["src"]⟩ = .ok ⟨.root, ["src"]⟩ :=
    rfl
  have hsurvey : ((survey false none ⟨.root, ["src"]⟩ (some ⟨.root, ["src", "out"]⟩)).run
      (oneFile "a.js" false)).1 = .ok (⟨.root, ["src", "out"]⟩, .ok [onlyScript]) := by
    decide +kernel
  have hrun : ((directory none ⟨.root, ["src"]⟩ (some ⟨.root, ["src", "out"]⟩)).run
      (oneFile "a.js" false)).1 = .ok {
        total := 1, succeeded := 1, bytesSaved := 1
        outputPath := some ⟨.root, ["src", "out"]⟩ } := by
    decide +kernel
  obtain ⟨hframe, -, hmirror, hcount⟩ := directory_mirrors_source htree rfl (by decide) (by decide)
    hplace (gives_of_run hsurvey) (gives_of_run hrun) (by decide +kernel)
  obtain ⟨bytes, hdue, hread⟩ := hmirror (onlyScript, (oneFile "a.js" false).disk)
    List.mem_cons_self (by decide +kernel)
  have hbytes : due none onlyScript (oneFile "a.js" false).disk = some [97, 59] := by
    decide +kernel
  cases hdue.symm.trans hbytes
  exact ⟨htree, _, _, gives_of_run hrun, hframe _ (by decide +kernel), hread, hcount⟩

end Run

end Minifier
