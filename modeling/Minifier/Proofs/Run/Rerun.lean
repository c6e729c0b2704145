import Minifier.Proofs.Disk.Saving
import Minifier.Proofs.Run.Apart
import Minifier.Proofs.Run.Plan

/-!
# Running again

A run over the directory of a tree that is repeated finds the same files, though the first run may
have added files inside the source (`Run.surveyed_again`). Every file becomes what it became before,
and is written where it was written before, or cannot be written again (`Run.settleAll_again`,
`Disk.save_again`). So the second run gives the same summary and leaves every file as the first run
left it (`Run.process_again`).
-/

set_option autoImplicit false

namespace Minifier

namespace Disk

variable {disk again : Disk} {path : Path} {content : Bytes}

/-- Saving the same content again has the same outcome and changes no content, also when the disk
has grown since. -/
theorem save_again (htree : disk.IsTree) (htree' : again.IsTree) (hpath : path.IsClean)
    (hgrows : (disk.save path content).2.Grows again)
    (hsame : again.contentAt? (disk.locationOf path) =
      (disk.save path content).2.contentAt? (disk.locationOf path)) :
    (again.save path content).1.isOk = (disk.save path content).1.isOk ∧
      ∀ place, (again.save path content).2.contentAt? place = again.contentAt? place := by
  obtain ⟨hkeeps, hcases⟩ := keeps_save htree hpath content
  obtain ⟨hkeeps', hcases'⟩ := keeps_save htree' hpath content
  have hlocation := (hkeeps.grows.trans hgrows).locationOf htree htree' hpath
  rcases hcases with ⟨hsaved, hcontent⟩ | ⟨hsaved, -⟩
  · have hsaved' : (again.save path content).1 = .ok () :=
      (save_isOk_iff htree'.toIsPlain path content).2
        (savable_of_save htree.toIsPlain hsaved hgrows)
    refine ⟨by rw [hsaved, hsaved'], fun place => ?_⟩
    -- the place written to holds the content already, and no other one changes
    by_cases hplace : place = again.locationOf path
    · rcases hcases' with ⟨-, hcontent'⟩ | ⟨hfailed, -⟩
      · rw [hplace, hcontent', hlocation, hsame, hcontent]
      · rw [hsaved'] at hfailed
        cases hfailed
    · exact hkeeps'.contentAt? place hplace
  · rcases hcases' with ⟨hsaved', -⟩ | ⟨hsaved', hcontents⟩
    · -- what could not be saved before cannot be saved now
      have hsavable := (save_isOk_iff htree'.toIsPlain path content).1 hsaved'
      rw [(save_isOk_iff htree.toIsPlain path content).2
        (hsavable.of_grows (hkeeps.grows.trans hgrows))] at hsaved
      cases hsaved
    · exact ⟨hsaved'.trans hsaved.symm, hcontents⟩

end Disk

/-- What can be seen after a tree has grown and nothing else has changed. -/
structure View.Grows (view view' : View) : Prop where
  isTree : view.disk.IsTree
  isTree' : view'.disk.IsTree
  disk : view.disk.Grows view'.disk
  clock : view'.clock = view.clock
  settings : view'.settings = view.settings
  exclusions : view'.exclusions = view.exclusions

theorem View.grows_of_keeps {view : View} {after : Disk} {kept : Location → Prop}
    (htree : view.disk.IsTree) (h : view.disk.Keeps kept after) :
    view.Grows { view with disk := after } :=
  ⟨htree, h.isTree, h.grows, rfl, rfl, rfl⟩

namespace Run

open Discovery Job

variable {combine : Bool} {rules : Option RuleSet} {source expanded target place : Path}
  {output : Option Path} {file : SourceFile} {files all : List SourceFile}
  {disk again original after : Disk} {omissions : Omissions} {base : Location} {view view' : View}
  {summary : Summary} {directories skipped : List Path} {request : Request} {s t u : Session}

/-! ## The second survey -/

theorem omissionsOf_congr (h : view.Grows view')
    (hdirectories : ∀ path ∈ directories, path.IsClean) :
    omissionsOf directories view' = omissionsOf directories view := by
  have hlocations : directories.map view'.disk.locationOf = directories.map view.disk.locationOf :=
    List.map_congr_left fun path hpath =>
      h.disk.locationOf h.isTree h.isTree' (hdirectories path hpath)
  rw [omissionsOf, omissionsOf, h.exclusions, hlocations]

/-- The same files are found when no content has changed at a place that a scan can find and that is
not skipped. -/
theorem surveyed_again (h : view.Grows view') (hsource : source.IsClean)
    (hexpand : view.disk.expandHome source = .ok expanded)
    (hplaced : placed combine rules expanded output view = .ok (target, directories, skipped))
    (hdirectories : ∀ path ∈ directories, path.IsClean) (hskipped : ∀ path ∈ skipped, path.IsClean)
    (hsame : ∀ names,
      (omissionsOf directories view).Admits (view.disk.locationOf expanded) [] names →
      view.disk.locationOf expanded ++ names ∉ skipped.map view.disk.locationOf →
        view'.disk.contentAt? (view.disk.locationOf expanded ++ names) =
          view.disk.contentAt? (view.disk.locationOf expanded ++ names))
    (hfound : found expanded (suffixesOf rules) directories skipped view = .ok (.ok files)) :
    surveyed combine rules source output view' = .ok (target, .ok files) := by
  have hclean := Disk.isClean_of_expandHome h.isTree.home_isClean hsource hexpand
  have hexpand' : view'.disk.expandHome source = .ok expanded :=
    (h.disk.expandHome source).trans hexpand
  have hresolve := h.disk.resolve h.isTree h.isTree' hclean
  have hlocation := h.disk.locationOf h.isTree h.isTree' hclean
  have hlocations : skipped.map view'.disk.locationOf = skipped.map view.disk.locationOf :=
    List.map_congr_left fun path hpath => h.disk.locationOf h.isTree h.isTree' (hskipped path hpath)
  obtain ⟨⟨hnull, hnulls, hnulls', hdirectory⟩, hne, hfiles⟩ := (found_eq_ok_iff h.isTree hclean
    (Disk.expandHome_of_expandHome h.isTree.home_isAbsolute hexpand)).1 hfound
  refine surveyed_eq_ok_iff.2 ⟨expanded, directories, skipped, hexpand', ?_, ?_⟩
  · -- the source stands for the same place, so the run writes to the same one
    have hresolved : resolved expanded view' = resolved expanded view := by
      rw [resolved, resolved, hresolve]
    rw [placed_congr hresolved, hplaced]
  · refine (found_eq_ok_iff h.isTree' hclean
      (Disk.expandHome_of_expandHome h.isTree'.home_isAbsolute hexpand')).2
      ⟨⟨hnull, hnulls, hnulls', ?_⟩, hne, ?_⟩
    · rw [Disk.realPath_eq h.isTree'.toIsPlain, hlocation,
        ← Disk.realPath_eq h.isTree.toIsPlain]
      exact h.disk.isDirectory? hdirectory
    · -- and files are found at the places at which they were found before
      rw [hfiles, sourcesOf, sourcesOf, omissionsOf_congr h hdirectories, hlocations, hlocation]
      refine filter_sourcesBelow_congr h.isTree h.isTree'
        (fun place => !(skipped.map view.disk.locationOf).contains place)
        fun names hadmits hkept => ?_
      rw [hsame names hadmits (by simpa using hkept)]

/-! ## Settling again -/

/-- A file that becomes what it became before is written again as it was, or not again either. -/
theorem settled_again (htree : disk.IsTree) (htree' : again.IsTree) (htarget : target.IsClean)
    (hattempt : attempt rules file again = attempt rules file disk)
    (hgrows : (settled false rules target file disk).2.Grows again)
    (hsame : again.contentAt? (disk.locationOf (outputOf target file)) =
      (settled false rules target file disk).2.contentAt?
        (disk.locationOf (outputOf target file))) :
    (settled false rules target file again).1 = (settled false rules target file disk).1 ∧
      ∀ place, (settled false rules target file again).2.contentAt? place =
        again.contentAt? place := by
  have hsettled : ∀ disk : Disk, settled false rules target file disk =
      delivery target file (attempt rules file disk) disk := fun _ => rfl
  rw [hsettled] at hgrows hsame
  rw [hsettled, hsettled, hattempt]
  cases houtcome : attempt rules file disk with
  | skipped => exact ⟨rfl, fun _ => rfl⟩
  | failed => exact ⟨rfl, fun _ => rfl⟩
  | done content minified =>
    rw [houtcome, delivery] at hgrows hsame
    obtain ⟨hsaved, hcontents⟩ :=
      Disk.save_again htree htree' (isClean_outputOf htarget file) hgrows hsame
    rw [delivery, delivery]
    exact ⟨by rw [hsaved], hcontents⟩

section Turns

variable (htree : original.IsTree) (htarget : target.IsClean)
  (hskipped : original.locationOf target ∈ omissions.directories)
  (houtside : ¬ original.locationOf target <+: base)
  (hall : ∀ file ∈ all, ∃ names, IsSource original omissions base file names)

include htree htarget hskipped houtside hall

/-- Files that are settled again on a disk that holds what settling them left become what they
became before, and no content changes. -/
theorem settleAll_again (hfiles : ∀ file ∈ files, file ∈ all) (hnodup : files.Nodup)
    (hdisk : original.Keeps (Elsewhere original target all) disk)
    (hagain : (settleAll false rules target files disk).2.Keeps (fun _ => True) again) :
    (settleAll false rules target files again).1 = (settleAll false rules target files disk).1 ∧
      ∀ place, (settleAll false rules target files again).2.contentAt? place =
        again.contentAt? place := by
  induction files generalizing disk again with
  | nil => exact ⟨rfl, fun _ => rfl⟩
  | cons file files ih =>
    obtain ⟨hnew, hnodup⟩ := List.nodup_cons.1 hnodup
    have hrest : ∀ other ∈ files, other ∈ all := fun other hother =>
      hfiles other (List.mem_cons_of_mem _ hother)
    have hclean := isClean_outputOf htarget file
    obtain ⟨names, hnames⟩ := hall file (hfiles file List.mem_cons_self)
    -- where files are written is the same on every disk on the way
    have helsewhere : ∀ {disk place}, original.Keeps (Elsewhere original target all) disk →
        Elsewhere original target all place → ∀ files' : List SourceFile,
          (∀ other ∈ files', other ∈ all) → Elsewhere disk target files' place :=
      fun hdisk hplace files' hfiles' => Elsewhere.of_grows htree hdisk.isTree hdisk.grows htarget
        fun other hother => hplace other (hfiles' other hother)
    obtain ⟨hfirst, -⟩ := settled_of_isTree hdisk.isTree htarget rules file
    have hnext : original.Keeps (Elsewhere original target all)
        (settled false rules target file disk).2 :=
      hdisk.trans (hfirst.imp fun place hplace =>
        helsewhere hdisk hplace (file :: files) hfiles file List.mem_cons_self)
    have hlater := keeps_settleAll hnext.isTree htarget rules files
    have hagain' : (settled false rules target file disk).2.Keeps
        (Elsewhere (settled false rules target file disk).2 target files) again :=
      hlater.trans (hagain.imp fun _ _ => trivial)
    have hend : original.Keeps (Elsewhere original target all) again :=
      hnext.trans (hagain'.imp fun place hplace => helsewhere hnext hplace files hrest)
    -- the file finds its own content both times
    have hattempt : attempt rules file again = attempt rules file disk := by
      have hkept := elsewhere_of_admits htree htarget hskipped houtside hall hnames.admitted
      rw [attempt_of_keeps htree hnames hend hkept, attempt_of_keeps htree hnames hdisk hkept]
    -- and nothing is written to its output after it
    have hown : Elsewhere (settled false rules target file disk).2 target files
        (disk.locationOf (outputOf target file)) := by
      intro other hother heq
      obtain ⟨names', hnames'⟩ := hall other (hrest other hother)
      rw [hnext.grows.locationOf htree hnext.isTree (isClean_outputOf htarget other),
        hdisk.grows.locationOf htree hdisk.isTree hclean] at heq
      exact hnew (hnames.eq_of_locationOf_eq htree htarget hnames' heq ▸ hother)
    obtain ⟨houtcome, hcontents⟩ := settled_again hdisk.isTree hagain.isTree htarget hattempt
      hagain'.grows (hagain'.contentAt? _ hown)
    obtain ⟨hsecond, -⟩ := settled_of_isTree hagain.isTree htarget rules file
    have hsame : (settleAll false rules target files
        (settled false rules target file disk).2).2.Keeps (fun _ => True)
          (settled false rules target file again).2 :=
      ⟨hsecond.isTree, hagain.grows.trans hsecond.grows,
        fun place _ => (hcontents place).trans (hagain.contentAt? place trivial)⟩
    obtain ⟨houtcomes, hcontents'⟩ := ih hrest hnodup hnext hsame
    rw [settleAll, settleAll]
    exact ⟨by rw [houtcome, houtcomes], fun place => (hcontents' place).trans (hcontents place)⟩

end Turns

/-! ## Surveying and settling again -/

/-- A run over a directory finds its files again on a disk that has grown, and what it makes of them
is the same summary and no other content. -/
structure Recurs (combine : Bool) (rules : Option RuleSet) (source : Path) (output : Option Path)
    (target : Path) (files : List SourceFile) (summary : Summary) (view view' : View) : Prop where
  grows : view.Grows view'
  found : surveyed combine rules source output view' = .ok (target, .ok files)
  made : ∃ after, concluded combine rules target view'.clock
      (settleAll combine rules target files view'.disk) = .ok (summary, after) ∧
    ∀ place, after.contentAt? place = view'.disk.contentAt? place

/-- A run that writes each file by itself, to an output that is neither its source nor above it,
finds and makes the same again on the disk that it leaves. -/
theorem separately_again (htree : view.disk.IsTree) (hsource : source.IsClean)
    (houtput : ∀ path, output = some path → path.IsClean)
    (hexpand : view.disk.expandHome source = .ok expanded)
    (hsurveyed : surveyed false rules source output view = .ok (target, .ok files))
    (houtside : ¬ view.disk.locationOf target <+: view.disk.locationOf expanded)
    (h : concluded false rules target view.clock (settleAll false rules target files view.disk) =
      .ok (summary, after)) :
    Recurs false rules source output target files summary view { view with disk := after } := by
  obtain ⟨_, directories, skipped, hexpand', hplaced, hfound⟩ := surveyed_eq_ok_iff.1 hsurveyed
  cases hexpand.symm.trans hexpand'
  obtain ⟨rfl, rfl⟩ := placed_separately hplaced
  have htarget := isClean_of_placed htree houtput (fun hfalse => by cases hfalse) hplaced
  obtain ⟨hnodup, hfiles⟩ := isSource_of_found htree
    (Disk.isClean_of_expandHome htree.home_isClean hsource hexpand)
    (Disk.expandHome_of_expandHome htree.home_isAbsolute hexpand) hfound
  have hall := fun file hfile => (hfiles file hfile).2
  have hskipped : view.disk.locationOf target ∈ (omissionsOf [target] view).directories :=
    List.mem_cons_self
  have hkeeps := keeps_settleAll htree htarget rules files
  obtain ⟨hsummary, rfl⟩ := Prod.mk.inj (Except.ok.inj h)
  obtain ⟨houtcomes, hcontents⟩ := settleAll_again htree htarget hskipped houtside
    hall (fun file hfile => hfile) hnodup (.refl htree _) (.refl hkeeps.isTree _)
  have hgrows := View.grows_of_keeps htree hkeeps
  refine ⟨hgrows, ?_, _, ?_, hcontents⟩
  · -- what the run wrote is below its output, where the survey does not look
    refine surveyed_again hgrows hsource hexpand hplaced (by simpa using htarget) (by simp)
      (fun names hadmits _ => hkeeps.contentAt? _ ?_) hfound
    exact elsewhere_of_admits htree htarget hskipped houtside hall hadmits
  · rw [concluded, if_neg Bool.false_ne_true, houtcomes, hsummary]

/-- A run that puts all files into one finds and makes the same again on the disk that it leaves. -/
theorem together_again (htree : view.disk.IsTree) (hsource : source.IsClean)
    (houtput : ∀ path, output = some path → path.IsClean)
    (hrules : ∀ set, rules = some set → IsPathName set.combinedName)
    (hsurveyed : surveyed true rules source output view = .ok (target, .ok files))
    (h : concluded true rules target view.clock (settleAll true rules target files view.disk) =
      .ok (summary, after)) :
    Recurs true rules source output target files summary view { view with disk := after } := by
  obtain ⟨expanded, directories, skipped, hexpand, hplaced, hfound⟩ :=
    surveyed_eq_ok_iff.1 hsurveyed
  obtain ⟨rfl, beside, hbeside, rfl⟩ := placed_together hplaced
  have htarget := isClean_of_placed htree houtput (fun _ => hrules) hplaced
  obtain ⟨-, hfiles⟩ := isSource_of_found htree
    (Disk.isClean_of_expandHome htree.home_isClean hsource hexpand)
    (Disk.expandHome_of_expandHome htree.home_isAbsolute hexpand) hfound
  rw [settleAll_combine] at h
  obtain ⟨bundle, hbundled, hsummary, rfl⟩ := concluded_together_eq_ok_iff.1 h
  obtain ⟨hkeeps, -⟩ := Disk.keeps_save htree htarget (Utf8.encode bundle.text)
  obtain ⟨hsaved, hcontents⟩ := Disk.save_again htree hkeeps.isTree htarget
    (.refl (view.disk.save target (Utf8.encode bundle.text)).2) rfl
  -- no file is read where the run writes
  have hattempts : (files.map fun file =>
      (file, attempt rules file (view.disk.save target (Utf8.encode bundle.text)).2)) =
        files.map fun file => (file, attempt rules file view.disk) := by
    refine List.map_congr_left fun file hfile => ?_
    obtain ⟨hkept, names, hnames⟩ := hfiles file hfile
    rw [attempt_of_keeps htree hnames hkeeps (by simpa [hnames.path] using hkept)]
  have hgrows := View.grows_of_keeps htree hkeeps
  refine ⟨hgrows, ?_, _, ?_, hcontents⟩
  · refine surveyed_again hgrows hsource hexpand hplaced ?_ ?_
      (fun names _ hkept => hkeeps.contentAt? _ ?_) hfound
    · simpa using isClean_of_besideOf htree hbeside
    · simpa using htarget
    · simpa using hkept
  · rw [settleAll_combine, hattempts]
    exact concluded_together_eq_ok_iff.2 ⟨bundle, hbundled, by rw [hsaved, hsummary], rfl⟩

/-! ## Runs over a directory -/

/-- On a tree a run over a directory whose survey finds files reports what settling them comes
to. -/
theorem exists_gives_of_surveyed (htree : s.disk.IsTree) (hlog : s.log.file = none)
    (hsource : source.IsClean)
    (hsurveyed : surveyed combine rules source output s.view = .ok (target, .ok files))
    (h : concluded combine rules target s.clock (settleAll combine rules target files s.disk) =
      .ok (summary, after)) :
    ∃ t, Gives (overDirectory combine rules source output) s summary t ∧ t.disk = after := by
  obtain ⟨u, hsurvey, -⟩ := (reads_survey combine rules source output).steady hlog hsurveyed
  obtain ⟨expanded, directories, skipped, hexpand, hplaced, hfound⟩ :=
    surveyed_eq_ok_iff.1 hsurveyed
  have hclean := Disk.isClean_of_expandHome htree.home_isClean hsource hexpand
  have hexpanded := Disk.expandHome_of_expandHome htree.home_isAbsolute hexpand
  obtain ⟨⟨-, hdirectories, hskipped, -⟩, -⟩ := (found_eq_ok_iff htree hclean hexpanded).1 hfound
  obtain ⟨-, hfiles⟩ := isSource_of_found htree hclean hexpanded hfound
  have htarget : Disk.hasNull target = false := by
    cases combine with
    | false => exact hdirectories target (by rw [(placed_separately hplaced).1]; simp)
    | true => exact hskipped target (by rw [(placed_together hplaced).1]; simp)
  -- the files of a tree have proper names, so none of the steps can end the run
  have hnull : ∀ file ∈ files, Disk.hasNull file.path = false ∧
      Disk.hasNull (outputOf target file) = false := by
    intro file hfile
    obtain ⟨-, names, hnames⟩ := hfiles file hfile
    exact hnames.hasNull_eq_false htree htarget
  obtain ⟨summary', t, hgives⟩ := exists_gives_overDirectory hlog hsurvey
    (fun file hfile => (hnull file hfile).1) (fun _ file hfile => (hnull file hfile).2)
    (fun _ => htarget) (by rw [h]; rfl)
  obtain ⟨-, hconcluded⟩ := eq_of_gives_overDirectory hlog hsurvey hgives
  rw [h] at hconcluded
  cases hconcluded
  exact ⟨t, hgives, rfl⟩

/-- A run over a directory of a tree grows it, and gives the same summary again and changes no
content. -/
theorem overDirectory_again (htree : s.disk.IsTree) (hlog : s.log.file = none)
    (hsource : source.IsClean) (houtput : ∀ path, output = some path → path.IsClean)
    (hrules : ∀ set, rules = some set → IsPathName set.combinedName)
    (hexpand : s.disk.expandHome source = .ok expanded)
    (houtside : combine = false → ∀ target found u,
      Gives (survey false rules source output) s (target, found) u →
        ¬ s.disk.locationOf target <+: s.disk.locationOf expanded)
    (h : Gives (overDirectory combine rules source output) s summary t) :
    s.Abides t ∧ s.view.Grows t.view ∧ ∀ t', t.Still t' →
      ∃ u, Gives (overDirectory combine rules source output) t' summary u ∧
        ∀ place, u.disk.contentAt? place = t.disk.contentAt? place := by
  have hreads := reads_survey combine rules source output
  rcases overDirectory_cases hlog h with
    ⟨target, v, ⟨message, hsurvey, rfl, hstill⟩ | ⟨files, hsurvey, habides, hconcluded⟩⟩
  · -- the survey finds no files, and finds none again
    have hsurveyed := hreads.answer_eq hlog hsurvey
    refine ⟨hstill.toAbides, ?_, fun t' hstill' => ?_⟩
    · rw [hstill.view_eq]
      exact ⟨htree, htree, .refl _, rfl, rfl, rfl⟩
    · have hview := (hstill.trans hstill').view_eq
      obtain ⟨v', hsurvey', -⟩ := hreads.steady hstill'.log (hview ▸ hsurveyed)
      obtain ⟨summary', u, hgives⟩ := exists_gives_overDirectory_of_error hstill'.log hsurvey'
      obtain ⟨rfl, hend⟩ := eq_of_gives_overDirectory_of_error hstill'.log hsurvey' hgives
      exact ⟨u, hgives, fun place => by rw [(hstill'.trans hend).disk]⟩
  · have hsurveyed := hreads.answer_eq hlog hsurvey
    have hview : { s.view with disk := t.disk } = t.view := by
      rw [Session.view, Session.view, habides.clock, habides.settings, habides.exclusions]
    have hagain : Recurs combine rules source output target files summary s.view t.view := by
      rw [← hview]
      cases combine with
      | false =>
        exact separately_again htree hsource houtput hexpand hsurveyed
          (houtside rfl target _ v hsurvey) hconcluded
      | true => exact together_again htree hsource houtput hrules hsurveyed hconcluded
    refine ⟨habides, hagain.grows, fun t' hstill => ?_⟩
    rw [← hstill.view_eq] at hagain
    obtain ⟨after, hmade, hcontents⟩ := hagain.made
    obtain ⟨u, hgives, rfl⟩ := exists_gives_of_surveyed hagain.grows.isTree' hstill.log hsource
      hagain.found hmade
    rw [Session.view, hstill.disk] at hcontents
    exact ⟨u, hgives, hcontents⟩

/-! ## Plans -/

/-- A rule set that differs from another one in its lists only. -/
def DiffersInLists (rules changed : RuleSet) : Prop :=
  ∃ including excluding cleanup groups,
    changed = { rules with including, excluding, cleanup, groups }

theorem DiffersInLists.stripPrefix_eq {rules changed : RuleSet} (h : DiffersInLists rules changed) :
    changed.stripPrefix = rules.stripPrefix := by
  obtain ⟨including, excluding, cleanup, groups, rfl⟩ := h
  rfl

theorem DiffersInLists.combinedName_eq {rules changed : RuleSet}
    (h : DiffersInLists rules changed) : changed.combinedName = rules.combinedName := by
  obtain ⟨including, excluding, cleanup, groups, rfl⟩ := h
  rfl

theorem differsInLists_of_override {rules changed : RuleSet} {changes : Overrides}
    (h : (rules.override changes).run.value = .ok changed) : DiffersInLists rules changed := by
  obtain ⟨including, -, h⟩ := value_run_bind_eq_ok_iff.1 h
  obtain ⟨excluding, -, h⟩ := value_run_bind_eq_ok_iff.1 h
  obtain ⟨cleanup, -, h⟩ := value_run_bind_eq_ok_iff.1 h
  obtain ⟨groups, -, h⟩ := value_run_bind_eq_ok_iff.1 h
  cases h
  exact ⟨including, excluding, cleanup, groups, rfl⟩

/-- The rule set that settings give under a name is a built-in one with other lists. -/
theorem exists_builtIn_of_ruleSet {settings : Settings} {name : String} {set : RuleSet}
    (h : (settings.ruleSet name).run.value = .ok set) :
    ∃ rules ∈ RuleSet.builtIn, DiffersInLists rules set := by
  rw [Settings.ruleSet, RuleSet.named] at h
  cases hfind : RuleSet.builtIn.find? fun rules => rules.name == lowerCase name with
  | none =>
    rw [hfind] at h
    cases h
  | some rules =>
    refine ⟨rules, List.mem_of_find?_eq_some hfind, ?_⟩
    rw [hfind] at h
    simp only at h
    cases hchanges : settings.rules.lookup rules.name with
    | none =>
      rw [hchanges] at h
      cases h
      exact ⟨_, _, _, _, rfl⟩
    | some changes =>
      rw [hchanges] at h
      cases hoverride : (rules.override changes).run.value with
      | error fault =>
        simp only [ExceptT.run_mk, Logged.value_bind, hoverride] at h
        cases h
      | ok changed =>
        simp only [ExceptT.run_mk, Logged.value_bind, hoverride] at h
        cases h
        exact differsInLists_of_override hoverride

/-- The rule set that a request names is a built-in one with other lists. -/
theorem exists_builtIn_of_rulesNamed {settings : Settings} {framework : Option String}
    {set : RuleSet} (h : rulesNamed settings framework = .ok (some set)) :
    ∃ rules ∈ RuleSet.builtIn, DiffersInLists rules set := by
  cases framework with
  | none => cases h
  | some name =>
    rw [rulesNamed] at h
    split at h
    · cases h
    · obtain ⟨found, hfound, h⟩ := bind_eq_ok_iff.1 h
      cases h
      exact exists_builtIn_of_ruleSet hfound

/-- The combined file of the rule set that a request names can have its name. -/
theorem isPathName_combinedName {settings : Settings} {framework : Option String} {set : RuleSet}
    (h : rulesNamed settings framework = .ok (some set)) : IsPathName set.combinedName := by
  have hbuiltIn : ∀ rules ∈ RuleSet.builtIn, IsPathName rules.combinedName := by decide
  obtain ⟨rules, hrules, hdiffers⟩ := exists_builtIn_of_rulesNamed h
  rw [hdiffers.combinedName_eq]
  exact hbuiltIn rules hrules

/-- A plan to go over a directory is made again when the tree has grown. -/
theorem planned_again {settings : Settings} (h : view.Grows view')
    (hplanned : planned request place settings view =
      .ok (.overDirectory combine rules source output)) :
    planned request place settings view' = .ok (.overDirectory combine rules source output) := by
  obtain ⟨hcombine, hplace, houtput, hrules, hdirectory⟩ := planned_overDirectory_iff.1 hplanned
  refine planned_overDirectory_iff.2 ⟨hcombine, hplace, ?_, hrules, ?_⟩
  · rw [← houtput, outputNamed.eq_def, outputNamed.eq_def]
    cases request.output with
    | none => rfl
    | some path => simp only [h.disk.expandHome path]
  · cases rules with
    | some rules => rfl
    | none => exact mapError_eq_ok_iff.2 (h.disk.isDirectory? (mapError_eq_ok_iff.1 hdirectory))

theorem isClean_of_outputNamed {settings : Settings} (hhome : view.disk.home.IsClean)
    (hoptions : ∀ path, request.output = some path ∨ settings.output = some path → path.IsClean)
    (h : outputNamed request settings view = .ok output) :
    ∀ path, output = some path → path.IsClean := by
  rintro path rfl
  rw [outputNamed.eq_def] at h
  cases hrequested : request.output with
  | none =>
    rw [hrequested] at h
    exact hoptions path (Or.inr (Except.ok.inj h))
  | some requested =>
    rw [hrequested] at h
    obtain ⟨expanded, hexpand, h⟩ := bind_eq_ok_iff.1 h
    cases h
    exact Disk.isClean_of_expandHome hhome (hoptions requested (Or.inl hrequested))
      (mapError_eq_ok_iff.1 hexpand)

/-- On a tree a request to go over a directory whose survey finds files reports what settling them
comes to. -/
theorem exists_gives_process_of_surveyed {settings : Settings} (htree : s.disk.IsTree)
    (hlog : s.log.file = none) (hsettings : s.settings = some settings)
    (hexpand : s.disk.expandHome request.source = .ok source) (hsource : source.IsClean)
    (hplanned : planned request source settings s.view =
      .ok (.overDirectory combine rules source output))
    (hsurveyed : surveyed combine rules source output s.view = .ok (target, .ok files))
    (h : concluded combine rules target s.clock (settleAll combine rules target files s.disk) =
      .ok (summary, after)) :
    ∃ t, Gives (process request) s summary t ∧ t.disk = after := by
  obtain ⟨u, hplan, hstill⟩ := steady_planOf hlog hsettings hexpand hplanned
  rw [← hstill.disk] at htree h
  rw [← hstill.clock] at h
  rw [← hstill.view_eq] at hsurveyed
  obtain ⟨t, hgives, hdisk⟩ := exists_gives_of_surveyed htree hstill.log hsource hsurveyed h
  rw [process_eq_planOf]
  exact ⟨t, gives_bind_iff.2 ⟨_, u, hplan, hgives⟩, hdisk⟩

/-- Over a directory of a tree a request gives the same summary when it is repeated, and the second
run leaves every file as the first one left it. A run that writes each file by itself must not write
to its source or above it; the output may lie anywhere inside. -/
theorem process_again {settings : Settings} (htree : s.disk.IsTree) (hlog : s.log.file = none)
    (hsettings : s.settings = some settings) (hsource : request.source.IsClean)
    (hoptions : ∀ path, request.output = some path ∨ settings.output = some path → path.IsClean)
    (hplan : Gives (planOf request) s (.overDirectory combine rules source output) u)
    (houtside : combine = false → ∀ target found v,
      Gives (survey false rules source output) s (target, found) v →
        ¬ s.disk.locationOf target <+: s.disk.locationOf source)
    (h : Gives (process request) s summary t) :
    ∃ v, Gives (process request) t summary v ∧
      ∀ place, v.disk.contentAt? place = t.disk.contentAt? place := by
  rw [process_eq_planOf] at h ⊢
  obtain ⟨plan, u', hplan', h⟩ := gives_bind_iff.1 h
  obtain ⟨rfl, rfl⟩ := hplan'.unique hplan
  obtain ⟨hstill, place, hplace, hplanned⟩ := planned_of_gives_planOf hlog hsettings hplan
  obtain ⟨-, rfl, houtput, hrules, -⟩ := planned_overDirectory_iff.1 hplanned
  have hexpand := Disk.expandHome_of_expandHome htree.home_isAbsolute hplace
  -- making the plan has changed nothing that the survey can see
  have houtside' : combine = false → ∀ target found v,
      Gives (survey false rules place output) u' (target, found) v →
        ¬ u'.disk.locationOf target <+: u'.disk.locationOf place := by
    intro hcombine target found v hsurvey
    have hreads := reads_survey false rules place output
    have hsurveyed := hreads.answer_eq hstill.log hsurvey
    rw [hstill.view_eq] at hsurveyed
    obtain ⟨w, hgives, -⟩ := hreads.steady hlog hsurveyed
    rw [hstill.disk]
    exact houtside hcombine target found w hgives
  obtain ⟨habides, hgrows, hagain⟩ := overDirectory_again (hstill.disk ▸ htree) hstill.log
    (Disk.isClean_of_expandHome htree.home_isClean hsource hplace)
    (isClean_of_outputNamed htree.home_isClean hoptions houtput)
    (fun set hset => isPathName_combinedName (hset ▸ hrules)) (hstill.disk ▸ hexpand) houtside' h
  rw [hstill.view_eq] at hgrows
  obtain ⟨t', hplan', hstill'⟩ := steady_planOf habides.log
    ((hstill.toAbides.trans habides).settings.trans hsettings)
    ((hgrows.disk.expandHome request.source).trans hplace) (planned_again hgrows hplanned)
  obtain ⟨v, hgives, hcontents⟩ := hagain t' hstill'
  exact ⟨v, gives_bind_iff.2 ⟨_, t', hplan', hgives⟩, hcontents⟩

/-! ## Two runs over one file -/

/-- The session of `oneFile` with settings. -/
def configured : Session :=
  { oneFile "a.js" false with settings := some { root := ⟨.root, []⟩ } }

/-- A request to minify the directory of that file to a path below it. -/
def requestInside (combine : Bool) (name : String) : Request where
  source := ⟨.root, ["src"]⟩
  output := some ⟨.root, ["src", name]⟩
  combine := combine

/-- Both runs minify the one file, though the output lies inside the source, and the second leaves
what the first has written: a file below the output, or the combined file. -/
theorem output_inside_is_left_again :
    (∃ summary t u, Gives (process (requestInside false "out")) configured summary t ∧
        Gives (process (requestInside false "out")) t summary u ∧ summary.succeeded = 1 ∧
          u.disk.contentAt? ["src", "out", "a.js"] = some [97, 59]) ∧
      ∃ summary t u, Gives (process (requestInside true "all.js")) configured summary t ∧
        Gives (process (requestInside true "all.js")) t summary u ∧ summary.succeeded = 1 ∧
          u.disk.contentAt? ["src", "a.js"] = some [97, 32, 59] := by
  have htree : configured.disk.IsTree := by decide +kernel
  have hplan : ∀ combine name, ((planOf (requestInside combine name)).run configured).1 =
      .ok (.overDirectory combine none ⟨.root, ["src"]⟩ (some ⟨.root, ["src", name]⟩)) :=
    fun _ _ => rfl
  have hoptions : ∀ combine name, IsPathName name → ∀ path,
      (requestInside combine name).output = some path ∨ (none : Option Path) = some path →
        path.IsClean := by
    rintro combine name hname path (hpath | hpath)
    · cases hpath
      simpa [Path.IsClean] using ⟨(by decide : IsPathName "src"), hname⟩
    · cases hpath
  constructor
  · have hsurvey : ((survey false none ⟨.root, ["src"]⟩ (some ⟨.root, ["src", "out"]⟩)).run
        configured).1 = .ok (⟨.root, ["src", "out"]⟩, .ok [onlyScript]) := by
      decide +kernel
    have hrun : ((process (requestInside false "out")).run configured).1 = .ok {
        total := 1, succeeded := 1, bytesSaved := 1
        outputPath := some ⟨.root, ["src", "out"]⟩ } := by
      decide +kernel
    have hwritten : ((process (requestInside false "out")).run configured).2.disk.contentAt?
        ["src", "out", "a.js"] = some [97, 59] := by
      decide +kernel
    obtain ⟨u, hagain, hcontents⟩ := process_again htree rfl rfl (by decide)
      (hoptions false "out" (by decide)) (gives_of_run (hplan false "out"))
      (fun _ target found v hgives => by
        obtain ⟨hfound, -⟩ := hgives.unique (gives_of_run hsurvey)
        cases hfound
        decide +kernel) (gives_of_run hrun)
    exact ⟨_, _, u, gives_of_run hrun, hagain, rfl, (hcontents _).trans hwritten⟩
  · have hrun : ((process (requestInside true "all.js")).run configured).1 = .ok {
        total := 1, succeeded := 1, bytesSaved := 1
        outputPath := some ⟨.root, ["src", "all.js"]⟩, outputSize := some 18
        groupCounts := [("script", 1)] } := by
      decide +kernel
    have hkept : ((process (requestInside true "all.js")).run configured).2.disk.contentAt?
        ["src", "a.js"] = some [97, 32, 59] := by
      decide +kernel
    obtain ⟨u, hagain, hcontents⟩ := process_again htree rfl rfl (by decide)
      (hoptions true "all.js" (by decide)) (gives_of_run (hplan true "all.js"))
      (fun hfalse => by cases hfalse) (gives_of_run hrun)
    exact ⟨_, _, u, gives_of_run hrun, hagain, rfl, (hcontents _).trans hkept⟩

end Run

end Minifier
