import Minifier.Proofs.Disk.Tree

/-!
# When saving succeeds

On a disk without links, directories can be made along names exactly when at every place that the
names visit a directory stands or nothing does (`Disk.makeDirectories_spec`), and a file can be
saved exactly when directories can be made along the way to it and none of them takes its place
(`Disk.save_isOk_iff`). So what could not be saved cannot be saved when the disk has grown
(`Disk.Savable.of_grows`), and what was saved can be saved again (`Disk.savable_of_save`).
-/

set_option autoImplicit false

namespace Minifier

namespace Disk

variable {disk before after : Disk} {here place : Location} {names rest init : List String}
  {name : String} {path : Path} {anchor : Anchor} {last : Bool} {links : Nat} {content : Bytes}

/-! ## Places on a way -/

/-- The places that names visit on the way from a place. -/
def visited : Location → List String → List Location
  | _, [] => []
  | here, name :: rest =>
    if name = ".." then visited here.dropLast rest
    else (here ++ [name]) :: visited (here ++ [name]) rest

@[simp]
theorem visited_nil (here : Location) : visited here [] = [] :=
  rfl

@[simp]
theorem visited_cons_up (here : Location) (rest : List String) :
    visited here (".." :: rest) = visited here.dropLast rest := by
  rw [visited, if_pos rfl]

theorem visited_cons_of_ne (h : name ≠ "..") :
    visited here (name :: rest) = (here ++ [name]) :: visited (here ++ [name]) rest := by
  rw [visited, if_neg h]

theorem visited_append (here : Location) (names rest : List String) :
    visited here (names ++ rest) = visited here names ++ visited (walk here names) rest := by
  induction names generalizing here with
  | nil => rfl
  | cons name names ih =>
    by_cases h : name = ".."
    · rw [h, List.cons_append, visited_cons_up, visited_cons_up, walk_cons_up, ih]
    · rw [List.cons_append, visited_cons_of_ne h, visited_cons_of_ne h, walk_cons_of_ne h, ih,
        List.cons_append]

/-- Directories stand along names. -/
structure Laid (disk : Disk) (here : Location) (names : List String) : Prop where
  short : ∀ name ∈ names, name ≠ ".." → ¬ nameLimit < name.utf8ByteSize
  there : ∀ place ∈ visited here names, disk.entryAt? place = some .directory

/-- Directories stand along names, or can be made there. -/
structure Clear (disk : Disk) (here : Location) (names : List String) : Prop where
  short : ∀ name ∈ names, name ≠ ".." → ¬ nameLimit < name.utf8ByteSize
  free : ∀ place ∈ visited here names,
    disk.entryAt? place = none ∨ disk.entryAt? place = some .directory

theorem Laid.clear (h : disk.Laid here names) : disk.Clear here names :=
  ⟨h.short, fun place hplace => Or.inr (h.there place hplace)⟩

theorem laid_cons_up_iff : disk.Laid here (".." :: rest) ↔ disk.Laid here.dropLast rest := by
  constructor
  · rintro ⟨hshort, hthere⟩
    rw [visited_cons_up] at hthere
    exact ⟨fun name hname => hshort name (List.mem_cons_of_mem _ hname), hthere⟩
  · rintro ⟨hshort, hthere⟩
    refine ⟨List.forall_mem_cons.2 ⟨fun h => absurd rfl h, hshort⟩, ?_⟩
    rwa [visited_cons_up]

theorem laid_cons_iff (h : name ≠ "..") :
    disk.Laid here (name :: rest) ↔ ¬ nameLimit < name.utf8ByteSize ∧
      disk.entryAt? (here ++ [name]) = some .directory ∧ disk.Laid (here ++ [name]) rest := by
  constructor
  · rintro ⟨hshort, hthere⟩
    rw [visited_cons_of_ne h, List.forall_mem_cons] at hthere
    rw [List.forall_mem_cons] at hshort
    exact ⟨hshort.1 h, hthere.1, hshort.2, hthere.2⟩
  · rintro ⟨hshort, hthere, hlaid⟩
    refine ⟨List.forall_mem_cons.2 ⟨fun _ => hshort, hlaid.short⟩, ?_⟩
    rw [visited_cons_of_ne h]
    exact List.forall_mem_cons.2 ⟨hthere, hlaid.there⟩

theorem clear_nil : disk.Clear here [] :=
  ⟨by simp, by simp⟩

theorem clear_append_iff :
    disk.Clear here (names ++ rest) ↔
      disk.Clear here names ∧ disk.Clear (walk here names) rest := by
  constructor
  · rintro ⟨hshort, hfree⟩
    rw [visited_append, List.forall_mem_append] at hfree
    rw [List.forall_mem_append] at hshort
    exact ⟨⟨hshort.1, hfree.1⟩, ⟨hshort.2, hfree.2⟩⟩
  · rintro ⟨hnames, hrest⟩
    refine ⟨List.forall_mem_append.2 ⟨hnames.short, hrest.short⟩, ?_⟩
    rw [visited_append]
    exact List.forall_mem_append.2 ⟨hnames.free, hrest.free⟩

theorem clear_cons_up_iff : disk.Clear here (".." :: rest) ↔ disk.Clear here.dropLast rest := by
  constructor
  · rintro ⟨hshort, hfree⟩
    rw [visited_cons_up] at hfree
    exact ⟨fun name hname => hshort name (List.mem_cons_of_mem _ hname), hfree⟩
  · rintro ⟨hshort, hfree⟩
    refine ⟨List.forall_mem_cons.2 ⟨fun h => absurd rfl h, hshort⟩, ?_⟩
    rwa [visited_cons_up]

theorem clear_cons_iff (h : name ≠ "..") :
    disk.Clear here (name :: rest) ↔ ¬ nameLimit < name.utf8ByteSize ∧
      (disk.entryAt? (here ++ [name]) = none ∨
        disk.entryAt? (here ++ [name]) = some .directory) ∧ disk.Clear (here ++ [name]) rest := by
  constructor
  · rintro ⟨hshort, hfree⟩
    rw [visited_cons_of_ne h, List.forall_mem_cons] at hfree
    rw [List.forall_mem_cons] at hshort
    exact ⟨hshort.1 h, hfree.1, hshort.2, hfree.2⟩
  · rintro ⟨hshort, hfree, hclear⟩
    refine ⟨List.forall_mem_cons.2 ⟨fun _ => hshort, hclear.short⟩, ?_⟩
    rw [visited_cons_of_ne h]
    exact List.forall_mem_cons.2 ⟨hfree, hclear.free⟩

theorem clear_concat_iff :
    disk.Clear here (init ++ [name]) ↔ disk.Clear here init ∧ (name ≠ ".." →
      ¬ nameLimit < name.utf8ByteSize ∧
        (disk.entryAt? (walk here init ++ [name]) = none ∨
          disk.entryAt? (walk here init ++ [name]) = some .directory)) := by
  rw [clear_append_iff]
  refine and_congr_right fun _ => ?_
  by_cases hup : name = ".."
  · subst hup
    exact iff_of_true (clear_cons_up_iff.2 clear_nil) fun h => absurd rfl h
  · rw [clear_cons_iff hup, and_iff_left clear_nil]
    exact (imp_iff_right hup).symm

/-! ## Following a way -/

/-- Directories that stand along names are gone through. -/
theorem locateFrom_append_of_laid (h : disk.Laid here names) (rest : List String) :
    locateFrom disk last (links + 1) here (names ++ rest) =
      locateFrom disk last (links + 1) (walk here names) rest := by
  induction names generalizing here with
  | nil => rfl
  | cons name names ih =>
    by_cases hup : name = ".."
    · subst hup
      rw [walk_cons_up, List.cons_append, locateFrom_cons_up, ih (laid_cons_up_iff.1 h)]
    · obtain ⟨hshort, hthere, hlaid⟩ := (laid_cons_iff hup).1 h
      rw [walk_cons_of_ne hup, ← ih hlaid, List.cons_append,
        locateFrom_cons_of_directory hup hshort hthere]

/-- A way that goes on stops where no directory stands, and then directories can be made along it
only if one is missing there. -/
theorem locateFrom_of_not_laid (hplain : disk.IsPlain) (h : ¬ disk.Laid here names)
    (name : String) :
    ∃ error,
      (∀ last links, locateFrom disk last (links + 1) here (names ++ [name]) = .error error) ∧
      (error = .missing ∨
        (error = .nameTooLong ∨ error = .notADirectory) ∧ ¬ disk.Clear here names) := by
  induction names generalizing here with
  | nil => exact absurd ⟨by simp, by simp⟩ h
  | cons first rest ih =>
    by_cases hup : first = ".."
    · subst hup
      obtain ⟨error, hlocate, herror⟩ := ih fun hlaid => h (laid_cons_up_iff.2 hlaid)
      exact ⟨error, fun last links => by rw [List.cons_append, locateFrom_cons_up, hlocate],
        herror.imp_right (And.imp_right (mt clear_cons_up_iff.1))⟩
    by_cases hlong : nameLimit < first.utf8ByteSize
    · exact ⟨.nameTooLong, fun _ _ => locateFrom_cons_of_long hup hlong,
        Or.inr ⟨Or.inl rfl, fun hclear => ((clear_cons_iff hup).1 hclear).1 hlong⟩⟩
    have hmore : (rest ++ [name]).isEmpty = false := by simp
    -- what stands at the first name decides whether the way goes on behind it
    cases hentry : disk.entryAt? (here ++ [first]) with
    | none =>
      refine ⟨.missing, fun last links => ?_, Or.inl rfl⟩
      rw [List.cons_append, locateFrom_cons_of_none hup hlong hentry, hmore]
      rfl
    | some entry =>
      cases entry with
      | link target => exact absurd hentry (hplain.ne_link _ _)
      | file content =>
        refine ⟨.notADirectory, fun last links => ?_, Or.inr ⟨Or.inr rfl, fun hclear => ?_⟩⟩
        · rw [List.cons_append, locateFrom_cons_of_file hup hlong hentry, hmore]
          rfl
        · have hfree := ((clear_cons_iff hup).1 hclear).2.1
          rw [hentry] at hfree
          simp at hfree
      | directory =>
        obtain ⟨error, hlocate, herror⟩ := ih fun hlaid =>
          h ((laid_cons_iff hup).2 ⟨hlong, hentry, hlaid⟩)
        refine ⟨error, fun last links => ?_, herror.imp_right (And.imp_right
          (mt fun hclear => ((clear_cons_iff hup).1 hclear).2.2))⟩
        rw [List.cons_append, locateFrom_cons_of_directory hup hlong hentry, hlocate]

/-- What stands at the end of a way through directories decides where it leads. -/
theorem locate_concat_of_laid (hnull : hasNull ⟨anchor, init ++ [name]⟩ = false)
    (hlaid : disk.Laid (disk.startOf ⟨anchor, init ++ [name]⟩) init) (last : Bool) :
    disk.locate last ⟨anchor, init ++ [name]⟩ =
      locateFrom disk last (linkLimit + 1) (walk (disk.startOf ⟨anchor, init ++ [name]⟩) init)
        [name] := by
  rw [locate, hnull, if_neg Bool.false_ne_true, locateFrom_append_of_laid hlaid]

theorem locateFrom_up (disk : Disk) (last : Bool) (links : Nat) (here : Location) :
    locateFrom disk last (links + 1) here [".."] = .ok (.taken here.dropLast .directory) :=
  rfl

theorem locateFrom_of_long (hup : name ≠ "..") (hlong : nameLimit < name.utf8ByteSize) :
    locateFrom disk last (links + 1) here [name] = .error .nameTooLong :=
  locateFrom_cons_of_long hup hlong

theorem locateFrom_of_none (hup : name ≠ "..") (hshort : ¬ nameLimit < name.utf8ByteSize)
    (h : disk.entryAt? (here ++ [name]) = none) :
    locateFrom disk last (links + 1) here [name] = .ok (.free (here ++ [name])) :=
  locateFrom_cons_of_none hup hshort h

theorem locateFrom_of_directory (hup : name ≠ "..") (hshort : ¬ nameLimit < name.utf8ByteSize)
    (h : disk.entryAt? (here ++ [name]) = some .directory) :
    locateFrom disk last (links + 1) here [name] = .ok (.taken (here ++ [name]) .directory) :=
  locateFrom_cons_of_directory hup hshort h

theorem locateFrom_of_file (hup : name ≠ "..") (hshort : ¬ nameLimit < name.utf8ByteSize)
    (h : disk.entryAt? (here ++ [name]) = some (.file content)) :
    locateFrom disk last (links + 1) here [name] = .ok (.taken (here ++ [name]) (.file content)) :=
  locateFrom_cons_of_file hup hshort h

/-! ## Making directories -/

/-- Makes a directory whose parent is there. -/
def makeLast (disk : Disk) (path : Path) : Except DiskError Unit × Disk :=
  match disk.makeDirectory path with
  | .ok made => (.ok (), made)
  | .error error => (disk.excuse path error, disk)

theorem makeLast_of_taken {entry : Entry} (h : disk.locate false path = .ok (.taken place entry)) :
    disk.makeDirectory path = .error .alreadyThere ∧
      disk.makeLast path = (disk.excuse path .alreadyThere, disk) := by
  have hmake : disk.makeDirectory path = .error .alreadyThere := by
    rw [makeDirectory, h]
    rfl
  exact ⟨hmake, by rw [makeLast, hmake]⟩

theorem makeLast_of_free (h : disk.locate false path = .ok (.free place)) :
    disk.makeDirectory path = .ok (disk.put place .directory) ∧
      disk.makeLast path = (.ok (), disk.put place .directory) := by
  have hmake : disk.makeDirectory path = .ok (disk.put place .directory) := by
    rw [makeDirectory, h]
    rfl
  exact ⟨hmake, by rw [makeLast, hmake]⟩

theorem makeLast_of_error {error : DiskError} (h : disk.locate false path = .error error) :
    disk.makeDirectory path = .error error ∧
      disk.makeLast path = (disk.excuse path error, disk) := by
  have hmake : disk.makeDirectory path = .error error := by
    rw [makeDirectory, h]
    rfl
  exact ⟨hmake, by rw [makeLast, hmake]⟩

theorem excuse_eq_ok_iff {error : DiskError} (hmissing : error ≠ .missing)
    (hnull : error ≠ .nullInName) :
    disk.excuse path error = .ok () ↔ disk.isDirectory? path = .ok true := by
  have hexcuse : disk.excuse path error = (do
      if ← disk.isDirectory? path then return () else throw error) := by
    cases error with
    | missing => exact absurd rfl hmissing
    | nullInName => exact absurd rfl hnull
    | _ => rfl
  rw [hexcuse]
  cases disk.isDirectory? path with
  | error error => simp [bind, Except.bind]
  | ok isDirectory =>
    cases isDirectory <;> simp [bind, Except.bind, pure, Except.pure, throw, throwThe,
      MonadExceptOf.throw]

theorem hasNull_init (h : hasNull ⟨anchor, init ++ [name]⟩ = false) :
    hasNull ⟨anchor, init⟩ = false :=
  hasNull_eq_false fun _ hother => not_mem_of_hasNull h (List.mem_append_left _ hother)

theorem parent_concat : (⟨anchor, init ++ [name]⟩ : Path).parent = ⟨anchor, init⟩ := by
  rw [Path.parent, List.dropLast_concat]

/-- Directories are made along names if that can be done, and nothing else changes. -/
structure MakesAlong (disk : Disk) (here : Location) (names : List String)
    (result : Except DiskError Unit × Disk) : Prop where
  succeeds : disk.Clear here names → result.1 = .ok ()
  entryAt? : disk.Clear here names → ∀ place, result.2.entryAt? place =
    if place ∈ visited here names then some .directory else disk.entryAt? place
  fails : ¬ disk.Clear here names → result.1 ≠ .ok ()

theorem Laid.makesAlong (h : disk.Laid here names) : disk.MakesAlong here names (.ok (), disk) where
  succeeds _ := rfl
  entryAt? _ place := by
    split
    · next hplace => exact h.there place hplace
    · rfl
  fails hnot := absurd h.clear hnot

/-- Directories can be made along a way whose beginning has been made before. -/
theorem MakesAlong.of_begun {below : Disk} {result : Except DiskError Unit × Disk}
    (h : below.MakesAlong here (init ++ [name]) result) (hclear : disk.Clear here init)
    (hentries : ∀ place, below.entryAt? place =
      if place ∈ visited here init then some .directory else disk.entryAt? place) :
    disk.MakesAlong here (init ++ [name]) result := by
  have hiff : below.Clear here (init ++ [name]) ↔ disk.Clear here (init ++ [name]) := by
    have hfree : ∀ place, (below.entryAt? place = none ∨ below.entryAt? place = some .directory) ↔
        disk.entryAt? place = none ∨ disk.entryAt? place = some .directory := by
      intro place
      rw [hentries]
      split
      · next hplace => exact iff_of_true (Or.inr rfl) (hclear.free place hplace)
      · exact Iff.rfl
    constructor
    · exact fun h => ⟨h.short, fun place hplace => (hfree place).1 (h.free place hplace)⟩
    · exact fun h => ⟨h.short, fun place hplace => (hfree place).2 (h.free place hplace)⟩
  refine ⟨fun hall => h.succeeds (hiff.2 hall), fun hall place => ?_,
    fun hnot => h.fails (hiff.not.2 hnot)⟩
  rw [h.entryAt? (hiff.2 hall), hentries]
  by_cases hplace : place ∈ visited here init
  · have hmem : place ∈ visited here (init ++ [name]) := by
      rw [visited_append]
      exact List.mem_append_left _ hplace
    rw [if_pos hmem, if_pos hmem]
  · rw [if_neg hplace]

/-- Where a directory stands, none is made. -/
theorem makesAlong_of_directory
    (hlocate : ∀ last, disk.locate last path = .ok (.taken place .directory))
    (hlaid : disk.Laid here names) :
    disk.makeDirectory path ≠ .error .missing ∧
      disk.MakesAlong here names (disk.makeLast path) := by
  obtain ⟨hmake, hlast⟩ := makeLast_of_taken (hlocate false)
  have hdirectory := isDirectory?_eq_true_iff.2 ⟨_, hlocate true⟩
  refine ⟨by rw [hmake]; simp, ?_⟩
  rw [hlast, (excuse_eq_ok_iff (by simp) (by simp)).2 hdirectory]
  exact hlaid.makesAlong

/-- Where anything else stands, or could not stand, no directory can be made. -/
theorem makesAlong_of_blocked {error : DiskError} (hmissing : error ≠ .missing)
    (hnull : error ≠ .nullInName) (hmake : disk.makeDirectory path = .error error)
    (hlocate : ∀ place, disk.locate true path ≠ .ok (.taken place .directory))
    (hnot : ¬ disk.Clear here names) :
    disk.makeDirectory path ≠ .error .missing ∧
      disk.MakesAlong here names (disk.makeLast path) := by
  have hlast : disk.makeLast path = (disk.excuse path error, disk) := by rw [makeLast, hmake]
  refine ⟨by rw [hmake]; simpa using hmissing, fun h => absurd h hnot, fun h => absurd h hnot,
    fun _ => ?_⟩
  rw [hlast, Ne, excuse_eq_ok_iff hmissing hnull, isDirectory?_eq_true_iff]
  rintro ⟨place, hplace⟩
  exact hlocate place hplace

/-- With the way there, the last directory is made if it can be. -/
theorem makesAlong_makeLast (hplain : disk.IsPlain)
    (hnull : hasNull ⟨anchor, init ++ [name]⟩ = false)
    (hlaid : disk.Laid (disk.startOf ⟨anchor, init ++ [name]⟩) init) :
    disk.makeDirectory ⟨anchor, init ++ [name]⟩ ≠ .error .missing ∧
      disk.MakesAlong (disk.startOf ⟨anchor, init ++ [name]⟩) (init ++ [name])
        (disk.makeLast ⟨anchor, init ++ [name]⟩) := by
  have hlocate := locate_concat_of_laid hnull hlaid
  have hclear := hlaid.clear
  have hthere := hlaid.there
  generalize disk.startOf ⟨anchor, init ++ [name]⟩ = start at *
  by_cases hup : name = ".."
  · subst hup
    refine makesAlong_of_directory (fun last => (hlocate last).trans (locateFrom_up disk _ _ _))
      ⟨(clear_concat_iff.2 ⟨hclear, fun h => absurd rfl h⟩).short, ?_⟩
    rw [visited_append, visited_cons_up, visited_nil, List.append_nil]
    exact hthere
  by_cases hlong : nameLimit < name.utf8ByteSize
  · have hplace := (hlocate true).trans (locateFrom_of_long hup hlong)
    exact makesAlong_of_blocked (by simp) (by simp)
      (makeLast_of_error ((hlocate false).trans (locateFrom_of_long hup hlong))).1
      (fun place h => by cases hplace.symm.trans h)
      fun h => ((clear_concat_iff.1 h).2 hup).1 hlong
  have hvisited : visited start (init ++ [name]) =
        visited start init ++ [walk start init ++ [name]] := by
    rw [visited_append, visited_cons_of_ne hup, visited_nil]
  -- what stands where the directory is to be made decides
  cases hentry : disk.entryAt? (walk start init ++ [name]) with
  | none =>
    obtain ⟨hmake, hlast⟩ :=
      makeLast_of_free ((hlocate false).trans (locateFrom_of_none hup hlong hentry))
    have hclear' : disk.Clear start (init ++ [name]) :=
      clear_concat_iff.2 ⟨hclear, fun _ => ⟨hlong, Or.inl hentry⟩⟩
    refine ⟨by rw [hmake]; simp, fun _ => by rw [hlast], fun _ place => ?_,
      fun hnot => absurd hclear' hnot⟩
    rw [hlast, hvisited]
    by_cases hplace : place = walk start init ++ [name]
    · rw [hplace, entryAt?_put_self disk _ (by simp), if_pos (by simp)]
    · rw [entryAt?_put_of_ne disk _ hplace]
      split
      · next hmem =>
        exact hthere place ((List.mem_append.1 hmem).resolve_right (by simpa using hplace))
      · rfl
  | some entry =>
    cases entry with
    | link target => exact absurd hentry (hplain.ne_link _ _)
    | directory =>
      have hclear' : disk.Clear start (init ++ [name]) :=
        clear_concat_iff.2 ⟨hclear, fun _ => ⟨hlong, Or.inr hentry⟩⟩
      refine makesAlong_of_directory
        (fun last => (hlocate last).trans (locateFrom_of_directory hup hlong hentry))
        ⟨hclear'.short, fun place hplace => ?_⟩
      rw [hvisited] at hplace
      rcases List.mem_append.1 hplace with hplace | hplace
      · exact hthere place hplace
      · rwa [List.mem_singleton.1 hplace]
    | file content =>
      have hplace := (hlocate true).trans (locateFrom_of_file hup hlong hentry)
      refine makesAlong_of_blocked (by simp) (by simp)
        (makeLast_of_taken ((hlocate false).trans (locateFrom_of_file hup hlong hentry))).1
        (fun place h => by cases hplace.symm.trans h) fun h => ?_
      have hfree := ((clear_concat_iff.1 h).2 hup).2
      rw [hentry] at hfree
      simp at hfree

theorem makeDirectories_of_ne_missing (h : disk.makeDirectory path ≠ .error .missing)
    (depth : Nat) : makeDirectories path (depth + 1) disk = disk.makeLast path := by
  rw [makeDirectories, makeLast]
  cases hmake : disk.makeDirectory path with
  | ok made => rfl
  | error error =>
    cases error with
    | missing => exact absurd hmake h
    | _ => rfl

/-- Where the directory above is missing, it is made first. -/
theorem makeDirectories_of_missing
    (hmake : disk.makeDirectory ⟨anchor, init ++ [name]⟩ = .error .missing) (depth : Nat) :
    makeDirectories ⟨anchor, init ++ [name]⟩ (depth + 1) disk =
      match makeDirectories ⟨anchor, init⟩ depth disk with
      | (.error error, below) => (.error error, below)
      | (.ok (), below) => below.makeLast ⟨anchor, init ++ [name]⟩ := by
  have hparent : (⟨anchor, init ++ [name]⟩ : Path).parent = ⟨anchor, init⟩ := by
    rw [Path.parent, List.dropLast_concat]
  have hne : (⟨anchor, init⟩ : Path) ≠ ⟨anchor, init ++ [name]⟩ := by simp
  rw [makeDirectories, hmake, hparent, if_neg hne]
  rcases makeDirectories ⟨anchor, init⟩ depth disk with ⟨error | done, below⟩
  · rfl
  · dsimp only
    cases hlast : below.makeDirectory ⟨anchor, init ++ [name]⟩ <;> simp only [makeLast, hlast]

/-- Directories are made along the names of a path. -/
theorem makeDirectories_spec (hplain : disk.IsPlain) (hnull : hasNull ⟨anchor, names⟩ = false) :
    disk.MakesAlong (disk.startOf ⟨anchor, names⟩) names
      (makeDirectories ⟨anchor, names⟩ (names.length + 1) disk) := by
  -- the recursion takes the last name off a path, and so does the induction
  induction names using List.reverseRecOn with
  | nil =>
    have hlocate : ∀ last, disk.locate last ⟨anchor, []⟩ =
        .ok (.taken (disk.startOf ⟨anchor, []⟩) .directory) := fun last => rfl
    obtain ⟨hmissing, hspec⟩ := makesAlong_of_directory hlocate
      (⟨by simp, by simp⟩ : disk.Laid (disk.startOf ⟨anchor, []⟩) [])
    rw [List.length_nil, makeDirectories_of_ne_missing hmissing]
    exact hspec
  | append_singleton init name ih =>
    have ih := ih (hasNull_init hnull)
    by_cases hlaid : disk.Laid (disk.startOf ⟨anchor, init ++ [name]⟩) init
    · obtain ⟨hmissing, hspec⟩ := makesAlong_makeLast hplain hnull hlaid
      rw [makeDirectories_of_ne_missing hmissing]
      exact hspec
    · obtain ⟨error, hlocate, herror⟩ := locateFrom_of_not_laid hplain hlaid name
      have hlocate' : ∀ last, disk.locate last ⟨anchor, init ++ [name]⟩ = .error error := by
        intro last
        rw [locate, hnull, if_neg Bool.false_ne_true]
        exact hlocate last linkLimit
      obtain ⟨hmake, -⟩ := makeLast_of_error (hlocate' false)
      rcases herror with rfl | ⟨herror, hnot⟩
      · have hfurnished := furnished_makeDirectories ⟨anchor, init⟩ (init.length + 1) disk
        rw [List.length_append, List.length_singleton, makeDirectories_of_missing hmake]
        cases hbelow : makeDirectories ⟨anchor, init⟩ (init.length + 1) disk with
        | mk answer below =>
          rw [hbelow] at ih hfurnished
          cases answer with
          | error error =>
            have hnot : ¬ disk.Clear (disk.startOf ⟨anchor, init ++ [name]⟩) (init ++ [name]) := by
              intro hclear
              cases ih.succeeds (clear_append_iff.1 hclear).1
            exact ⟨fun h => absurd h hnot, fun h => absurd h hnot, fun _ => by simp⟩
          | ok done =>
            have hclear : disk.Clear (disk.startOf ⟨anchor, init⟩) init := by
              by_contra hnot
              exact ih.fails hnot rfl
            have hentries := ih.entryAt? hclear
            have hstart :
                below.startOf ⟨anchor, init ++ [name]⟩ = disk.startOf ⟨anchor, init⟩ := by
              rw [hfurnished.grows.startOf_eq]
              rfl
            have hlaid' : below.Laid (below.startOf ⟨anchor, init ++ [name]⟩) init := by
              rw [hstart]
              exact ⟨hclear.short, fun place hplace => by rw [hentries, if_pos hplace]⟩
            obtain ⟨-, hspec⟩ := makesAlong_makeLast (hfurnished.isPlain hplain) hnull hlaid'
            rw [hstart] at hspec
            exact hspec.of_begun hclear hentries
      · have hrefused : error ≠ .missing ∧ error ≠ .nullInName := by
          rcases herror with rfl | rfl <;> simp
        obtain ⟨hmissing, hspec⟩ := makesAlong_of_blocked hrefused.1 hrefused.2 hmake
          (fun place h => by cases (hlocate' true).symm.trans h)
          fun h : disk.Clear (disk.startOf ⟨anchor, init ++ [name]⟩) (init ++ [name]) =>
            hnot (clear_append_iff.1 h).1
        rw [makeDirectories_of_ne_missing hmissing]
        exact hspec

/-! ## Saving -/

/-- A file can be saved at a path: directories can be made along the way to it, none of them takes
its place, and nothing there is in the way. -/
def Savable (disk : Disk) (path : Path) : Prop :=
  hasNull path = false ∧ ∃ init name, path.names = init ++ [name] ∧ name ≠ ".." ∧
    ¬ nameLimit < name.utf8ByteSize ∧ disk.Clear (disk.startOf path) init ∧
      walk (disk.startOf path) init ++ [name] ∉ visited (disk.startOf path) init ∧
        (disk.entryAt? (walk (disk.startOf path) init ++ [name]) = none ∨
          ∃ content, disk.entryAt? (walk (disk.startOf path) init ++ [name]) =
            some (.file content)) ∧
          walk (disk.startOf path) init ++ [name] ∉ disk.unwritable

theorem savable_concat_iff :
    disk.Savable ⟨anchor, init ++ [name]⟩ ↔
      hasNull ⟨anchor, init ++ [name]⟩ = false ∧ name ≠ ".." ∧
        ¬ nameLimit < name.utf8ByteSize ∧
        disk.Clear (disk.startOf ⟨anchor, init ++ [name]⟩) init ∧
        walk (disk.startOf ⟨anchor, init ++ [name]⟩) init ++ [name] ∉
          visited (disk.startOf ⟨anchor, init ++ [name]⟩) init ∧
        (disk.entryAt? (walk (disk.startOf ⟨anchor, init ++ [name]⟩) init ++ [name]) = none ∨
          ∃ content, disk.entryAt? (walk (disk.startOf ⟨anchor, init ++ [name]⟩) init ++ [name]) =
            some (.file content)) ∧
        walk (disk.startOf ⟨anchor, init ++ [name]⟩) init ++ [name] ∉ disk.unwritable := by
  constructor
  · rintro ⟨hnull, init', name', hnames, h⟩
    obtain ⟨rfl, hname⟩ := List.append_inj' hnames rfl
    cases hname
    exact ⟨hnull, h⟩
  · rintro ⟨hnull, h⟩
    exact ⟨hnull, init, name, rfl, h⟩

theorem openForWriting_of_file {old : Bytes}
    (h : disk.locate true path = .ok (.taken place (.file old)))
    (hwritable : place ∉ disk.unwritable) : disk.openForWriting path = .ok (place, old) := by
  rw [openForWriting, h]
  show (if disk.unwritable.contains place then _ else _) = _
  rw [if_neg (by simpa using hwritable)]
  rfl

theorem openForWriting_of_free (h : disk.locate true path = .ok (.free place))
    (hwritable : place ∉ disk.unwritable) : disk.openForWriting path = .ok (place, []) := by
  rw [openForWriting, h]
  show (if disk.unwritable.contains place then _ else _) = _
  rw [if_neg (by simpa using hwritable)]
  rfl

/-- Opening succeeds at the end of a way through directories unless something is in the way. -/
theorem openForWriting_concat_iff (hplain : disk.IsPlain)
    (hnull : hasNull ⟨anchor, init ++ [name]⟩ = false)
    (hlaid : disk.Laid (disk.startOf ⟨anchor, init ++ [name]⟩) init) :
    (∃ opened, disk.openForWriting ⟨anchor, init ++ [name]⟩ = .ok opened) ↔
      name ≠ ".." ∧ ¬ nameLimit < name.utf8ByteSize ∧
        (disk.entryAt? (walk (disk.startOf ⟨anchor, init ++ [name]⟩) init ++ [name]) = none ∨
          ∃ content, disk.entryAt? (walk (disk.startOf ⟨anchor, init ++ [name]⟩) init ++ [name]) =
            some (.file content)) ∧
        walk (disk.startOf ⟨anchor, init ++ [name]⟩) init ++ [name] ∉ disk.unwritable := by
  have hlocate := locate_concat_of_laid hnull hlaid true
  generalize disk.startOf ⟨anchor, init ++ [name]⟩ = start at *
  constructor
  · rintro ⟨⟨place, old⟩, hopen⟩
    obtain ⟨hwritable, hspot⟩ := exists_of_openForWriting hopen
    rw [hlocate] at hspot
    have hspot : ∃ spot, Leads disk true (linkLimit + 1) (walk start init) [name] spot ∧
        (spot = .taken place (.file old) ∨ spot = .free place) := by
      rcases hspot with hspot | ⟨hspot, -⟩
      · exact ⟨_, locateFrom_eq_ok_iff.1 hspot, Or.inl rfl⟩
      · exact ⟨_, locateFrom_eq_ok_iff.1 hspot, Or.inr rfl⟩
    -- only a file and a free place can be opened, and no entry is a link
    obtain ⟨spot, hleads, hspot⟩ := hspot
    cases hleads with
    | up h =>
      cases h
      simp at hspot
    | free _ hup hshort hentry =>
      obtain rfl : walk start init ++ [name] = place := by simpa using hspot
      exact ⟨hup, hshort, Or.inl hentry, hwritable⟩
    | directory _ _ _ h =>
      cases h
      simp at hspot
    | file _ hup hshort hentry =>
      obtain ⟨rfl, rfl⟩ : walk start init ++ [name] = place ∧ _ = old := by simpa using hspot
      exact ⟨hup, hshort, Or.inr ⟨_, hentry⟩, hwritable⟩
    | link _ _ _ hentry _ => exact absurd hentry (hplain.ne_link _ _)
    | follow _ _ hentry _ _ => exact absurd hentry (hplain.ne_link _ _)
  · rintro ⟨hup, hshort, hentry | ⟨content, hentry⟩, hwritable⟩
    · exact ⟨_,
        openForWriting_of_free (hlocate.trans (locateFrom_of_none hup hshort hentry)) hwritable⟩
    · exact ⟨_,
        openForWriting_of_file (hlocate.trans (locateFrom_of_file hup hshort hentry)) hwritable⟩

theorem not_savable_of_hasNull (hnull : hasNull path = true) (content : Bytes) :
    (disk.save path content).1 ≠ .ok () := by
  intro h
  rcases disk.save_cases path content with
    ⟨furnished, place, -, -, -, -, hlocate⟩ | ⟨error, furnished, -, hsave⟩
  · have hfalse := (locate_eq_ok_iff.1 hlocate).1
    rw [hnull] at hfalse
    cases hfalse
  · rw [hsave] at h
    cases h

/-- Saving makes the directories along the way to the file, and then writes it. -/
theorem save_eq (disk : Disk) (path : Path) (content : Bytes) :
    disk.save path content =
      match makeDirectories path.parent (path.parent.names.length + 1) disk with
      | (.error error, after) => (.error error, after)
      | (.ok (), after) =>
        match after.write path content with
        | .ok written => (.ok (), written)
        | .error error => (.error error, after) :=
  rfl

/-- With the directories made, saving is writing. -/
theorem save_concat (hplain : disk.IsPlain) (hnull : hasNull ⟨anchor, init ++ [name]⟩ = false)
    (hclear : disk.Clear (disk.startOf ⟨anchor, init ++ [name]⟩) init) (content : Bytes) :
    ∃ below, disk.Furnished below ∧
      below.Laid (below.startOf ⟨anchor, init ++ [name]⟩) init ∧
        (∀ place, below.entryAt? place =
          if place ∈ visited (disk.startOf ⟨anchor, init ++ [name]⟩) init then some .directory
          else disk.entryAt? place) ∧
        disk.save ⟨anchor, init ++ [name]⟩ content =
          match below.write ⟨anchor, init ++ [name]⟩ content with
          | .ok written => (.ok (), written)
          | .error error => (.error error, below) := by
  have hspec := makeDirectories_spec hplain (hasNull_init hnull)
  have hfurnished := furnished_makeDirectories ⟨anchor, init⟩ (init.length + 1) disk
  have hsucceeds := hspec.succeeds hclear
  have hentries := hspec.entryAt? hclear
  have hsave := save_eq disk ⟨anchor, init ++ [name]⟩ content
  rw [parent_concat] at hsave
  cases hmade : makeDirectories ⟨anchor, init⟩ (init.length + 1) disk with
  | mk answer below =>
    rw [hmade] at hsave hsucceeds hentries hfurnished
    obtain rfl : answer = .ok () := hsucceeds
    refine ⟨below, hfurnished, ⟨hclear.short, fun place hplace => ?_⟩, hentries, hsave⟩
    rw [hfurnished.grows.startOf_eq] at hplace
    exact (hentries place).trans (if_pos hplace)

theorem not_savable_of_no_names (disk : Disk) (anchor : Anchor) (content : Bytes) :
    (disk.save ⟨anchor, []⟩ content).1 ≠ .ok () := by
  intro h
  rcases disk.save_cases ⟨anchor, []⟩ content with
    ⟨furnished, place, -, -, -, -, hlocate⟩ | ⟨error, furnished, -, hsave⟩
  · have hleads := (locate_eq_ok_iff.1 hlocate).2
    generalize (furnished.put place (.file content)).startOf ⟨anchor, []⟩ = start at hleads
    cases hleads
  · rw [hsave] at h
    cases h

theorem not_savable_of_not_clear (hplain : disk.IsPlain)
    (hnull : hasNull ⟨anchor, init ++ [name]⟩ = false)
    (hnot : ¬ disk.Clear (disk.startOf ⟨anchor, init ++ [name]⟩) init) (content : Bytes) :
    (disk.save ⟨anchor, init ++ [name]⟩ content).1 ≠ .ok () := by
  intro h
  have hfails := (makeDirectories_spec hplain (hasNull_init hnull)).fails hnot
  rw [save_eq, parent_concat] at h
  cases hmade : makeDirectories ⟨anchor, init⟩ (init.length + 1) disk with
  | mk answer below =>
    rw [hmade] at hfails h
    cases answer with
    | ok done => exact hfails rfl
    | error error => cases h

theorem save_concat_isOk_iff (hplain : disk.IsPlain)
    (hnull : hasNull ⟨anchor, init ++ [name]⟩ = false)
    (hclear : disk.Clear (disk.startOf ⟨anchor, init ++ [name]⟩) init) (content : Bytes) :
    (disk.save ⟨anchor, init ++ [name]⟩ content).1 = .ok () ↔
      disk.Savable ⟨anchor, init ++ [name]⟩ := by
  obtain ⟨below, hfurnished, hlaid, hentries, hsave⟩ := save_concat hplain hnull hclear content
  have hopen := openForWriting_concat_iff (hfurnished.isPlain hplain) hnull hlaid
  rw [hfurnished.grows.startOf_eq, hfurnished.grows.unwritable, hentries] at hopen
  have hwrite : (disk.save ⟨anchor, init ++ [name]⟩ content).1 = .ok () ↔
      ∃ opened, below.openForWriting ⟨anchor, init ++ [name]⟩ = .ok opened := by
    rw [hsave, write]
    cases below.openForWriting ⟨anchor, init ++ [name]⟩ with
    | ok opened => simp [bind, Except.bind, pure, Except.pure]
    | error error => simp [bind, Except.bind]
  rw [hwrite, hopen, savable_concat_iff]
  -- where a directory was made on the way, no file can be opened
  constructor
  · rintro ⟨hup, hshort, hentry, hwritable⟩
    split at hentry
    · simp at hentry
    · next hvisited => exact ⟨hnull, hup, hshort, hclear, hvisited, hentry, hwritable⟩
  · rintro ⟨-, hup, hshort, -, hvisited, hentry, hwritable⟩
    rw [if_neg hvisited]
    exact ⟨hup, hshort, hentry, hwritable⟩

/-- On a disk without links saving succeeds at the paths at which a file can be saved. -/
theorem save_isOk_iff (hplain : disk.IsPlain) (path : Path) (content : Bytes) :
    (disk.save path content).1 = .ok () ↔ disk.Savable path := by
  cases hnull : hasNull path with
  | true =>
    refine iff_of_false (not_savable_of_hasNull hnull content) ?_
    rintro ⟨hfalse, -⟩
    rw [hnull] at hfalse
    cases hfalse
  | false =>
    obtain ⟨anchor, names⟩ := path
    rcases List.eq_nil_or_concat names with rfl | ⟨init, name, rfl⟩
    · refine iff_of_false (not_savable_of_no_names disk anchor content) ?_
      rintro ⟨-, init, name, hnames, -⟩
      simp at hnames
    · rw [List.concat_eq_append] at hnull ⊢
      by_cases hclear : disk.Clear (disk.startOf ⟨anchor, init ++ [name]⟩) init
      · exact save_concat_isOk_iff hplain hnull hclear content
      · exact iff_of_false (not_savable_of_not_clear hplain hnull hclear content)
          fun h => hclear (savable_concat_iff.1 h).2.2.2.1

/-- What can be saved on a disk that has grown could be saved before. -/
theorem Savable.of_grows (hgrows : before.Grows after)
    (h : after.Savable path) : before.Savable path := by
  obtain ⟨hnull, init, name, hnames, hup, hshort, hclear, hvisited, hentry, hwritable⟩ := h
  rw [hgrows.startOf_eq] at hclear hvisited hentry hwritable
  refine ⟨hnull, init, name, hnames, hup, hshort, ⟨hclear.short, fun place hplace => ?_⟩, hvisited,
    ?_, hgrows.unwritable ▸ hwritable⟩
  · have hfree := hclear.free place hplace
    cases hold : before.entryAt? place with
    | none => exact Or.inl rfl
    | some old =>
      obtain ⟨new, hnew, halike⟩ := hgrows.kept hold
      rw [hnew] at hfree
      obtain rfl : new = .directory := by simpa using hfree
      cases halike
      exact Or.inr rfl
  · cases hold : before.entryAt? (walk (before.startOf path) init ++ [name]) with
    | none => exact Or.inl rfl
    | some old =>
      obtain ⟨new, hnew, halike⟩ := hgrows.kept hold
      rw [hnew] at hentry
      obtain ⟨content, rfl⟩ : ∃ content, new = .file content := by simpa using hentry
      cases halike with
      | same => exact Or.inr ⟨content, rfl⟩
      | files old _ => exact Or.inr ⟨old, rfl⟩

/-- What was saved can be saved again, also when the disk has grown since. -/
theorem savable_of_save (hplain : disk.IsPlain) (h : (disk.save path content).1 = .ok ())
    (hgrows : (disk.save path content).2.Grows after) : after.Savable path := by
  have hsavable := (save_isOk_iff hplain path content).1 h
  obtain ⟨anchor, names⟩ := path
  obtain ⟨init, name, rfl⟩ : ∃ init name, names = init ++ [name] := by
    obtain ⟨-, init, name, hnames, -⟩ := hsavable
    exact ⟨init, name, hnames⟩
  obtain ⟨hnull, hup, hshort, hclear, hvisited, -, hwritable⟩ := savable_concat_iff.1 hsavable
  obtain ⟨below, hfurnished, hlaid, -, hsave⟩ := save_concat hplain hnull hclear content
  rw [hfurnished.grows.startOf_eq] at hlaid
  cases hwrite : below.write ⟨anchor, init ++ [name]⟩ content with
  | error error =>
    rw [hsave, hwrite] at h
    cases h
  | ok written =>
    rw [hsave, hwrite] at hgrows
    obtain ⟨place, hplace, halike, rfl, hlocate⟩ := exists_of_write hwrite
    have hgrown := hfurnished.grows.trans (grows_put hplace halike)
    -- the file stands where the names lead, and the directories on the way to it
    have hplain' : (below.put place (.file content)).IsPlain :=
      (hfurnished.isPlain hplain).put fun target => by simp
    have hspot := place_of_locate hplain' hlocate
    rw [hgrown.startOf_eq, walk_append, walk_cons_of_ne hup, walk_nil] at hspot
    obtain rfl : place = walk (disk.startOf ⟨anchor, init ++ [name]⟩) init ++ [name] := hspot
    have hfile := entryAt?_put_self below (.file content) hplace
    obtain ⟨entry, hentry, halike'⟩ := hgrows.kept hfile
    have hall := hgrown.trans hgrows
    refine savable_concat_iff.2 ⟨hnull, hup, hshort, ?_⟩
    rw [hall.startOf_eq, hall.unwritable]
    refine ⟨⟨hclear.short, fun other hother => Or.inr (hgrows.directory ?_)⟩, hvisited, Or.inr ?_,
      hwritable⟩
    · have hne : other ≠ walk (disk.startOf ⟨anchor, init ++ [name]⟩) init ++ [name] := by
        rintro rfl
        exact hvisited hother
      rw [entryAt?_put_of_ne below _ hne]
      exact hlaid.there other hother
    · cases halike' with
      | same => exact ⟨_, hentry⟩
      | files _ content' => exact ⟨content', hentry⟩

end Disk

end Minifier
