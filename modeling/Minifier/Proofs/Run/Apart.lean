import Minifier.Proofs.Run.Found
import Minifier.Proofs.Run.Written

/-!
# Files written apart from the files read

In a tree every file that is found is written to a place of its own below the output
(`Run.locationOf_outputOf`), and no file that is found stands at such a place when the output is
neither the source nor above it (`Run.elsewhere_of_admits`). So files that are settled one after
another all find the contents that the first one finds (`Run.keeps_of_mem_inTurn`), and in the end
nothing has changed but the places that they are written to (`Run.keeps_settleAll`).
-/

set_option autoImplicit false

namespace Minifier

/-- A tree that has grown, with the contents of some places kept. -/
structure Disk.Keeps (kept : Location → Prop) (before after : Disk) : Prop where
  isTree : after.IsTree
  grows : before.Grows after
  contentAt? : ∀ place, kept place → after.contentAt? place = before.contentAt? place

namespace Disk

variable {kept kept' : Location → Prop} {disk before after : Disk} {place : Location} {path : Path}
  {content : Bytes}

theorem Keeps.refl (htree : disk.IsTree) (kept : Location → Prop) : disk.Keeps kept disk :=
  ⟨htree, .refl disk, fun _ _ => rfl⟩

theorem Keeps.trans {a b c : Disk} (hab : a.Keeps kept b) (hbc : b.Keeps kept c) : a.Keeps kept c :=
  ⟨hbc.isTree, hab.grows.trans hbc.grows,
    fun place h => (hbc.contentAt? place h).trans (hab.contentAt? place h)⟩

theorem Keeps.imp (h : before.Keeps kept after) (himp : ∀ place, kept' place → kept place) :
    before.Keeps kept' after :=
  ⟨h.isTree, h.grows, fun place hplace => h.contentAt? place (himp place hplace)⟩

/-- In a tree a path leads to the place that it stands for. -/
theorem IsTree.eq_locationOf (htree : disk.IsTree) (hpath : path.IsClean) {last : Bool}
    {spot : Spot} (h : disk.locate last path = .ok spot) : spot.place = disk.locationOf path := by
  rw [place_of_locate htree.toIsPlain h,
    locationOf_of_isPlain htree.toIsPlain htree.workingDirectory_ne_up hpath]

/-- The file at a place of a tree is read by the path of that place, unless it is protected. -/
theorem IsTree.readProtected_eq (htree : disk.IsTree) (h : disk.contentAt? place = some content) :
    disk.readProtected ⟨.root, place⟩ =
      if place ∈ disk.unreadable then .error .denied else .ok content := by
  have hentry := contentAt?_eq_some_iff.1 h
  have hnames := htree.isFileName hentry
  have hnull : hasNull ⟨.root, place⟩ = false :=
    hasNull_eq_false fun name hname => (hnames name hname).no_null
  have hlocate : disk.locate true ⟨.root, place⟩ = .ok (.taken place (.file content)) :=
    htree.locate_file hentry
  have hlocation : disk.locationOf ⟨.root, place⟩ = place :=
    (htree.eq_locationOf (fun name hname => (hnames name hname).toIsPathName) hlocate).symm
  rw [readProtected, hnull, hlocation, read_eq_ok_iff.2 ⟨place, hlocate⟩]
  simp

/-- Saving puts the content at the place of the path, or fails and changes no content; all else is
kept. -/
theorem keeps_save (htree : disk.IsTree) (hpath : path.IsClean) (content : Bytes) :
    disk.Keeps (· ≠ disk.locationOf path) (disk.save path content).2 ∧
      ((disk.save path content).1 = .ok () ∧
          (disk.save path content).2.contentAt? (disk.locationOf path) = some content ∨
        (disk.save path content).1.isOk = false ∧
          ∀ place, (disk.save path content).2.contentAt? place = disk.contentAt? place) := by
  have htree' := htree.save hpath content
  rcases disk.save_cases path content with
    ⟨furnished, written, hfurnished, hwritten, halike, hsave, hlocate⟩ |
      ⟨error, furnished, hfurnished, hsave⟩
  · have hgrows := hfurnished.grows.trans (grows_put hwritten halike)
    rw [hsave] at htree' ⊢
    have hplace : written = disk.locationOf path :=
      (htree'.eq_locationOf hpath hlocate).trans (hgrows.locationOf htree htree' hpath)
    refine ⟨⟨htree', hgrows, fun place hne => ?_⟩, Or.inl ⟨rfl, ?_⟩⟩
    · rw [contentAt?_put_file furnished _ hwritten, if_neg (hplace ▸ hne), hfurnished.contentAt?]
    · rw [contentAt?_put_file furnished _ hwritten, if_pos hplace.symm]
  · rw [hsave] at htree' ⊢
    exact ⟨⟨htree', hfurnished.grows, fun place _ => hfurnished.contentAt?⟩,
      Or.inr ⟨rfl, fun place => hfurnished.contentAt?⟩⟩

end Disk

namespace Run

open Discovery

variable {rules : Option RuleSet} {target : Path} {file other : SourceFile}
  {files : List SourceFile} {disk after : Disk} {kept : Location → Prop} {base place : Location}
  {omissions : Omissions} {names names' : List String} {minified : Text}

/-! ## Places of outputs -/

theorem isClean_outputOf (htarget : target.IsClean) (file : SourceFile) :
    (outputOf target file).IsClean :=
  htarget.join (Path.isClean_ofString file.relative)

theorem IsSource.ext (h : IsSource disk omissions base file names)
    (h' : IsSource disk omissions base other names) : file = other := by
  obtain ⟨path, relative, kind⟩ := file
  obtain ⟨path', relative', kind'⟩ := other
  obtain rfl : path = path' := h.path.trans h'.path.symm
  obtain rfl : relative = relative' := h.relative.trans h'.relative.symm
  have hkind : some kind = some kind' := h.kind.symm.trans h'.kind
  rw [Option.some.inj hkind]

theorem IsSource.isFileName (htree : disk.IsTree) (h : IsSource disk omissions base file names) :
    ∀ name ∈ names, IsFileName name := by
  obtain ⟨content, hcontent⟩ := h.content
  exact fun name hname => htree.isFileName (Disk.contentAt?_eq_some_iff.1 hcontent) name
    (List.mem_append_right _ hname)

theorem IsSource.outputOf_eq (htree : disk.IsTree) (h : IsSource disk omissions base file names)
    (target : Path) : outputOf target file = ⟨target.anchor, target.names ++ names⟩ := by
  have hrelative : Path.ofString file.relative = ⟨.working, names⟩ := by
    rw [h.relative]
    exact Path.ofString_relativeText fun name hname => (h.isFileName htree name hname).toIsPathName
  rw [outputOf, hrelative]
  rfl

/-- A file is written to the place below the output that its names lead to. -/
theorem locationOf_outputOf (htree : disk.IsTree) (htarget : target.IsClean)
    (h : IsSource disk omissions base file names) :
    disk.locationOf (outputOf target file) = disk.locationOf target ++ names := by
  have hcwd := htree.workingDirectory_ne_up
  have hstart : disk.startOf ⟨target.anchor, target.names ++ names⟩ = disk.startOf target := rfl
  rw [Disk.locationOf_of_isPlain htree.toIsPlain hcwd (isClean_outputOf htarget file),
    Disk.locationOf_of_isPlain htree.toIsPlain hcwd htarget, h.outputOf_eq htree, hstart,
    Disk.walk_append,
    Disk.walk_of_forall_ne fun name hname => (h.isFileName htree name hname).ne_up]

/-- The path of a file that is found has no null character, and neither has that of its output. -/
theorem IsSource.hasNull_eq_false (htree : disk.IsTree)
    (h : IsSource disk omissions base file names) (htarget : Disk.hasNull target = false) :
    Disk.hasNull file.path = false ∧ Disk.hasNull (outputOf target file) = false := by
  obtain ⟨content, hcontent⟩ := h.content
  have hnames := htree.isFileName (Disk.contentAt?_eq_some_iff.1 hcontent)
  rw [h.path, h.outputOf_eq htree]
  refine ⟨Disk.hasNull_eq_false fun name hname => (hnames name hname).no_null,
    Disk.hasNull_eq_false fun name hname => ?_⟩
  rcases List.mem_append.1 hname with hname | hname
  · exact Disk.not_mem_of_hasNull htarget hname
  · exact (hnames name (List.mem_append_right _ hname)).no_null

/-- Files that are written to one place are one file. -/
theorem IsSource.eq_of_locationOf_eq (htree : disk.IsTree) (htarget : target.IsClean)
    (h : IsSource disk omissions base file names) (h' : IsSource disk omissions base other names')
    (heq : disk.locationOf (outputOf target file) = disk.locationOf (outputOf target other)) :
    file = other := by
  rw [locationOf_outputOf htree htarget h, locationOf_outputOf htree htarget h'] at heq
  obtain rfl := List.append_cancel_left heq
  exact h.ext h'

/-- None of the files is written to a place. -/
def Elsewhere (disk : Disk) (target : Path) (files : List SourceFile) (place : Location) : Prop :=
  ∀ file ∈ files, place ≠ disk.locationOf (outputOf target file)

/-- A scan finds nothing below a directory at which it stops, unless it begins there or below. -/
theorem ne_append_of_admits {top below : Location} (h : omissions.Admits base [] names)
    (hskipped : top ∈ omissions.directories) (houtside : ¬ top <+: base) (hbelow : below ≠ []) :
    base ++ names ≠ top ++ below := by
  intro heq
  rcases List.append_eq_append_iff.1 heq with ⟨above, hbase, hnames⟩ | ⟨above, htop, -⟩
  · -- the directory is on the way to the place, and the scan stops there
    have hne : above ≠ [] := by
      rintro rfl
      exact houtside ⟨[], by rw [List.append_nil, hbase, List.append_nil]⟩
    have hopen := h.directory above below hnames hne hbelow
    rw [Omissions.hasDirectory, Bool.or_eq_false_iff, Bool.or_eq_false_iff, ← hbase,
      List.contains_eq_mem, decide_eq_false_iff_not] at hopen
    exact hopen.1.2 hskipped
  · exact houtside ⟨above, htop.symm⟩

/-- No file is written to a place that a scan can find, when the output is skipped and neither the
source nor above it. -/
theorem elsewhere_of_admits (htree : disk.IsTree) (htarget : target.IsClean)
    (hskipped : disk.locationOf target ∈ omissions.directories)
    (houtside : ¬ disk.locationOf target <+: base)
    (hfiles : ∀ file ∈ files, ∃ names, IsSource disk omissions base file names)
    (h : omissions.Admits base [] names) : Elsewhere disk target files (base ++ names) := by
  intro other hother
  obtain ⟨names', hother⟩ := hfiles other hother
  rw [locationOf_outputOf htree htarget hother]
  exact ne_append_of_admits h hskipped houtside hother.admitted.ne_nil

/-! ## Files in turn -/

/-- What minifying makes of a file does not change while its content is kept. -/
theorem attempt_of_keeps (htree : disk.IsTree) (h : IsSource disk omissions base file names)
    (hkeeps : disk.Keeps kept after) (hkept : kept (base ++ names)) :
    attempt rules file after = attempt rules file disk := by
  obtain ⟨content, hcontent⟩ := h.content
  have hafter := (hkeeps.contentAt? _ hkept).trans hcontent
  rw [attempt, attempt, h.path, htree.readProtected_eq hcontent,
    hkeeps.isTree.readProtected_eq hafter, hkeeps.grows.unreadable]

/-- A file that is settled by itself has its text at the place of its output, or it is not done; all
else is kept. -/
theorem settled_of_isTree (htree : disk.IsTree) (htarget : target.IsClean)
    (rules : Option RuleSet) (file : SourceFile) :
    disk.Keeps (· ≠ disk.locationOf (outputOf target file))
        (settled false rules target file disk).2 ∧
      ((∃ content minified, (settled false rules target file disk).1 = .done content minified ∧
          (settled false rules target file disk).2.contentAt?
            (disk.locationOf (outputOf target file)) = some (Utf8.encode minified)) ∨
        (settled false rules target file disk).1.isDone = false ∧
          ∀ place, (settled false rules target file disk).2.contentAt? place =
            disk.contentAt? place) := by
  have hsettled : settled false rules target file disk =
      delivery target file (attempt rules file disk) disk := rfl
  rw [hsettled]
  cases attempt rules file disk with
  | skipped => exact ⟨.refl htree _, Or.inr ⟨rfl, fun _ => rfl⟩⟩
  | failed => exact ⟨.refl htree _, Or.inr ⟨rfl, fun _ => rfl⟩⟩
  | done content minified =>
    rw [delivery]
    obtain ⟨hkeeps, ⟨hsaved, hcontent⟩ | ⟨hsaved, hcontents⟩⟩ :=
      Disk.keeps_save htree (isClean_outputOf htarget file) (Utf8.encode minified)
    · exact ⟨hkeeps, Or.inl ⟨content, minified, by rw [hsaved]; rfl, hcontent⟩⟩
    · exact ⟨hkeeps, Or.inr ⟨by rw [hsaved]; rfl, hcontents⟩⟩

theorem Elsewhere.of_grows (htree : disk.IsTree) (htree' : after.IsTree) (hgrows : disk.Grows after)
    (htarget : target.IsClean) (h : Elsewhere disk target files place) :
    Elsewhere after target files place := by
  intro file hfile
  rw [hgrows.locationOf htree htree' (isClean_outputOf htarget file)]
  exact h file hfile

/-- Settling files keeps what stands where none of them is written. -/
theorem keeps_settleAll (htree : disk.IsTree) (htarget : target.IsClean) (rules : Option RuleSet)
    (files : List SourceFile) :
    disk.Keeps (Elsewhere disk target files) (settleAll false rules target files disk).2 := by
  induction files generalizing disk with
  | nil => exact .refl htree _
  | cons file files ih =>
    obtain ⟨hfirst, -⟩ := settled_of_isTree htree htarget rules file
    have hrest := ih hfirst.isTree
    refine (hfirst.imp fun place hplace => hplace file List.mem_cons_self).trans
      (hrest.imp fun place hplace => ?_)
    exact Elsewhere.of_grows htree hfirst.isTree hfirst.grows htarget
      fun other hother => hplace other (List.mem_cons_of_mem _ hother)

/-- When its turn comes, a file finds all kept that stands where none of the files is written. -/
theorem keeps_of_mem_inTurn (htree : disk.IsTree) (htarget : target.IsClean)
    {turn : SourceFile × Disk} (h : turn ∈ inTurn false rules target files disk) :
    disk.Keeps (Elsewhere disk target files) turn.2 := by
  induction files generalizing disk with
  | nil => cases h
  | cons file files ih =>
    rcases List.mem_cons.1 h with rfl | h
    · exact .refl htree _
    · obtain ⟨hfirst, -⟩ := settled_of_isTree htree htarget rules file
      refine (hfirst.imp fun place hplace => hplace file List.mem_cons_self).trans
        ((ih hfirst.isTree h).imp fun place hplace => ?_)
      exact Elsewhere.of_grows htree hfirst.isTree hfirst.grows htarget
        fun other hother => hplace other (List.mem_cons_of_mem _ hother)

end Run

end Minifier
