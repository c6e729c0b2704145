import Mathlib.Data.List.Induction
import Minifier.Proofs.Answers
import Minifier.Proofs.Disk.Growth
import Minifier.Proofs.Path

/-!
# Trees without links

On a disk without links a path leads where its names lead, whatever else is on the disk: each name
goes one level down, and each `..` one level up (`Disk.walk`). Following a path, resolving it and
looking up where it is all agree on that (`Disk.place_of_locate`, `Disk.realPath_of_isPlain`). A
`Disk.IsTree` moreover has every entry once, in a directory and under a proper name.
-/

set_option autoImplicit false

namespace Minifier

/-- The place of a spot. -/
def Spot.place : Spot → Location
  | .taken place _ => place
  | .free place => place

/-- A name that an entry of a tree can have. -/
structure IsFileName (name : String) : Prop extends IsPathName name where
  ne_up : name ≠ ".."
  no_null : '\x00' ∉ name.toList
  short : name.utf8ByteSize ≤ Disk.nameLimit

instance (name : String) : Decidable (IsFileName name) :=
  decidable_of_iff (IsPathName name ∧ name ≠ ".." ∧ '\x00' ∉ name.toList ∧
      name.utf8ByteSize ≤ Disk.nameLimit)
    ⟨fun ⟨hname, hup, hnull, hshort⟩ => ⟨hname, hup, hnull, hshort⟩,
      fun h => ⟨h.toIsPathName, h.ne_up, h.no_null, h.short⟩⟩

/-- Whether an entry is a link. -/
def Entry.isLink : Entry → Bool
  | .link _ => true
  | _ => false

theorem Entry.isLink_eq_false_iff {entry : Entry} :
    entry.isLink = false ↔ ∀ target, entry ≠ .link target := by
  cases entry <;> simp [isLink]

instance (entry : Entry) : Decidable (∀ target, entry ≠ .link target) :=
  decidable_of_iff (entry.isLink = false) Entry.isLink_eq_false_iff

namespace Disk

variable {disk : Disk} {here place : Location} {entry : Entry} {path : Path}
  {names rest : List String} {name : String}

/-- Where names lead from a place. -/
def walk : Location → List String → Location
  | here, [] => here
  | here, name :: rest =>
    if name = ".." then walk here.dropLast rest else walk (here ++ [name]) rest

@[simp]
theorem walk_nil (here : Location) : walk here [] = here :=
  rfl

@[simp]
theorem walk_cons_up (here : Location) (rest : List String) :
    walk here (".." :: rest) = walk here.dropLast rest := by
  rw [walk, if_pos rfl]

theorem walk_cons_of_ne (h : name ≠ "..") :
    walk here (name :: rest) = walk (here ++ [name]) rest := by
  rw [walk, if_neg h]

theorem walk_append (here : Location) (names rest : List String) :
    walk here (names ++ rest) = walk (walk here names) rest := by
  induction names generalizing here with
  | nil => rfl
  | cons name names ih =>
    by_cases h : name = ".."
    · rw [h, List.cons_append, walk_cons_up, walk_cons_up, ih]
    · rw [List.cons_append, walk_cons_of_ne h, walk_cons_of_ne h, ih]

/-- Names that lead downwards only lead to the place that they name. -/
theorem walk_of_forall_ne (h : ∀ name ∈ names, name ≠ "..") : walk here names = here ++ names := by
  induction names generalizing here with
  | nil => rw [walk_nil, List.append_nil]
  | cons name names ih =>
    rw [List.forall_mem_cons] at h
    rw [walk_cons_of_ne h.1, ih h.2, List.append_assoc, List.singleton_append]

theorem forall_walk_of_forall {P : String → Prop} (hhere : ∀ name ∈ here, P name)
    (hnames : ∀ name ∈ names, name ≠ ".." → P name) : ∀ name ∈ walk here names, P name := by
  induction names generalizing here with
  | nil => exact hhere
  | cons name names ih =>
    rw [List.forall_mem_cons] at hnames
    by_cases h : name = ".."
    · rw [h, walk_cons_up]
      exact ih (fun other hother => hhere other (List.dropLast_subset _ hother)) hnames.2
    · rw [walk_cons_of_ne h]
      refine ih (fun other hother => ?_) hnames.2
      rcases List.mem_append.1 hother with hother | hother
      · exact hhere other hother
      · rw [List.mem_singleton.1 hother]
        exact hnames.1 h

/-! ## Directories and homes -/

theorem isDirectory?_eq_true_iff :
    disk.isDirectory? path = .ok true ↔
      ∃ place, disk.locate true path = .ok (.taken place .directory) := by
  rw [isDirectory?, probe, stat]
  cases disk.locate true path with
  | error error => cases error <;> simp [bind, Except.bind]
  | ok spot =>
    cases spot with
    | free place => simp [bind, Except.bind, throw, throwThe, MonadExceptOf.throw]
    | taken place entry =>
      cases entry <;> simp [bind, Except.bind, pure, Except.pure, Entry.isDirectory]

theorem exists?_of_isDirectory? (h : disk.isDirectory? path = .ok true) :
    disk.exists? path = .ok true := by
  obtain ⟨place, hlocate⟩ := isDirectory?_eq_true_iff.1 h
  rw [exists?, probe, stat, hlocate]
  rfl

/-- A directory stays one. -/
theorem Grows.isDirectory? {before after : Disk} (hgrows : before.Grows after)
    (h : before.isDirectory? path = .ok true) : after.isDirectory? path = .ok true := by
  obtain ⟨place, hlocate⟩ := isDirectory?_eq_true_iff.1 h
  obtain ⟨entry, hlocate, halike⟩ := hgrows.locate hlocate
  cases halike
  exact isDirectory?_eq_true_iff.2 ⟨place, hlocate⟩

theorem expandHome_of_isAbsolute (disk : Disk) (h : path.isAbsolute = true) :
    disk.expandHome path = .ok path := by
  obtain ⟨anchor, names⟩ := path
  cases anchor with
  | working => exact absurd h Bool.false_ne_true
  | root => rfl
  | doubleRoot => rfl

/-- A path stays as it is, or the home of the user is put in the place of its first name. -/
theorem expandHome_cases {expanded : Path} (h : disk.expandHome path = .ok expanded) :
    expanded = path ∨ ∃ rest, path = ⟨.working, "~" :: rest⟩ ∧
      expanded = disk.home.join ⟨.working, rest⟩ := by
  obtain ⟨anchor, names⟩ := path
  cases anchor with
  | root => exact Or.inl (Except.ok.inj h).symm
  | doubleRoot => exact Or.inl (Except.ok.inj h).symm
  | working =>
    cases names with
    | nil => exact Or.inl (Except.ok.inj h).symm
    | cons first rest =>
      simp only [expandHome] at h
      split at h
      · next htilde => exact Or.inr ⟨rest, by rw [htilde], (Except.ok.inj h).symm⟩
      · split at h
        · cases h
        · exact Or.inl (Except.ok.inj h).symm

/-- A path that starts at the home of the user no longer does so when that is put in its place. -/
theorem expandHome_of_expandHome (hhome : disk.home.isAbsolute = true) {expanded : Path}
    (h : disk.expandHome path = .ok expanded) : disk.expandHome expanded = .ok expanded := by
  rcases expandHome_cases h with rfl | ⟨rest, -, rfl⟩
  · exact h
  · exact expandHome_of_isAbsolute disk hhome

theorem isClean_of_expandHome (hhome : disk.home.IsClean) (hpath : path.IsClean) {expanded : Path}
    (h : disk.expandHome path = .ok expanded) : expanded.IsClean := by
  rcases expandHome_cases h with rfl | ⟨rest, rfl, rfl⟩
  · exact hpath
  · exact hhome.join fun name hname => hpath name (List.mem_cons_of_mem _ hname)

/-! ## Disks without links -/

theorem mem_entries_of_entryAt? (hplace : place ≠ []) (h : disk.entryAt? place = some entry) :
    (place, entry) ∈ disk.entries := by
  rw [entryAt?, if_neg (by simpa using hplace)] at h
  obtain ⟨before, after, hentries, -⟩ := List.lookup_eq_some_iff.1 h
  rw [hentries]
  exact List.mem_append_right _ List.mem_cons_self

theorem entryAt?_of_mem_entries (hnodup : (disk.entries.map Prod.fst).Nodup) (hplace : place ≠ [])
    (h : (place, entry) ∈ disk.entries) : disk.entryAt? place = some entry := by
  rw [entryAt?, if_neg (by simpa using hplace)]
  obtain ⟨before, after, hentries⟩ := List.append_of_mem h
  refine List.lookup_eq_some_iff.2 ⟨before, after, hentries, fun item hitem => ?_⟩
  rw [hentries, List.map_append, List.map_cons, List.nodup_append] at hnodup
  rw [bne_iff_ne]
  exact (hnodup.2.2 item.1 (List.mem_map_of_mem hitem) place List.mem_cons_self).symm

/-- A disk without links, whose entries stand at different places. -/
structure IsPlain (disk : Disk) : Prop where
  nodup : (disk.entries.map Prod.fst).Nodup
  noLink : ∀ item ∈ disk.entries, ∀ target, item.2 ≠ Entry.link target

theorem IsPlain.ne_link (hplain : disk.IsPlain) (place : Location) (target : String) :
    disk.entryAt? place ≠ some (.link target) := by
  intro h
  by_cases hplace : place = []
  · rw [hplace] at h
    cases h
  · exact hplain.noLink _ (mem_entries_of_entryAt? hplace h) target rfl

theorem map_fst_putEntry (place : Location) (entry : Entry) (entries : List (Location × Entry)) :
    (putEntry place entry entries).map Prod.fst =
      if place ∈ entries.map Prod.fst then entries.map Prod.fst
      else entries.map Prod.fst ++ [place] := by
  induction entries with
  | nil => simp [putEntry]
  | cons first rest ih =>
    obtain ⟨other, old⟩ := first
    by_cases h : other = place
    · simp [putEntry, h]
    · rw [putEntry, if_neg h, List.map_cons, List.map_cons, ih]
      by_cases hmem : place ∈ rest.map Prod.fst
      · rw [if_pos hmem, if_pos (List.mem_cons_of_mem _ hmem)]
      · rw [if_neg hmem, if_neg (List.not_mem_cons_of_ne_of_not_mem (Ne.symm h) hmem),
          List.cons_append]

theorem mem_putEntry {item : Location × Entry} {entries : List (Location × Entry)}
    (h : item ∈ putEntry place entry entries) : item = (place, entry) ∨ item ∈ entries := by
  induction entries with
  | nil => exact Or.inl (List.mem_singleton.1 h)
  | cons first rest ih =>
    obtain ⟨other, old⟩ := first
    rw [putEntry] at h
    split at h
    · exact (List.mem_cons.1 h).imp_right (List.mem_cons_of_mem _)
    · rcases List.mem_cons.1 h with rfl | h
      · exact Or.inr List.mem_cons_self
      · exact (ih h).imp_right (List.mem_cons_of_mem _)

/-- Putting anything but a link leaves a disk without links. -/
theorem IsPlain.put (hplain : disk.IsPlain) (hentry : ∀ target, entry ≠ .link target) :
    (disk.put place entry).IsPlain where
  nodup := by
    rw [Disk.put, map_fst_putEntry]
    split
    · exact hplain.nodup
    · next hnew => exact List.nodup_append.2 ⟨hplain.nodup, by simp,
        fun other hother last hlast => by
          rw [List.mem_singleton.1 hlast]
          rintro rfl
          exact hnew hother⟩
  noLink item hitem := by
    rcases mem_putEntry hitem with rfl | hitem
    · exact hentry
    · exact hplain.noLink item hitem

theorem Furnished.isPlain {before after : Disk} (hplain : before.IsPlain)
    (h : before.Furnished after) : after.IsPlain := by
  induction h with
  | refl => exact hplain
  | step _ _ ih => exact ih.put fun target => by simp

/-- On a disk without links a way leads where its names lead. -/
theorem Leads.place_eq (hplain : disk.IsPlain) {last : Bool} {links : Nat} {spot : Spot}
    (h : Leads disk last links here names spot) : spot.place = walk here names := by
  induction h with
  | here links here => rfl
  | up _ ih => rw [walk_cons_up, ih]
  | free links hup _ _ =>
    rw [walk_cons_of_ne hup]
    rfl
  | directory hup _ _ _ ih => rw [walk_cons_of_ne hup, ih]
  | file links hup _ _ =>
    rw [walk_cons_of_ne hup]
    rfl
  | link links hup _ hentry _ => exact absurd hentry (hplain.ne_link _ _)
  | follow hup _ hentry _ _ _ => exact absurd hentry (hplain.ne_link _ _)

theorem place_of_locate (hplain : disk.IsPlain) {last : Bool} {spot : Spot}
    (h : disk.locate last path = .ok spot) :
    spot.place = walk (disk.startOf path) path.names :=
  (locate_eq_ok_iff.1 h).2.place_eq hplain

/-- No way through a disk without links is too long. -/
theorem locateFrom_ne_tooManyLinks (hplain : disk.IsPlain) {last : Bool} {links : Nat} :
    locateFrom disk last (links + 1) here names ≠ .error .tooManyLinks := by
  intro h
  induction names generalizing here with
  | nil => cases h
  | cons name rest ih =>
    by_cases hup : name = ".."
    · rw [hup, locateFrom_cons_up] at h
      exact ih h
    by_cases hlong : nameLimit < name.utf8ByteSize
    · rw [locateFrom_cons_of_long hup hlong] at h
      cases h
    cases hentry : disk.entryAt? (here ++ [name]) with
    | none =>
      rw [locateFrom_cons_of_none hup hlong hentry] at h
      split at h <;> cases h
    | some entry =>
      cases entry with
      | directory =>
        rw [locateFrom_cons_of_directory hup hlong hentry] at h
        exact ih h
      | file content =>
        rw [locateFrom_cons_of_file hup hlong hentry] at h
        split at h <;> cases h
      | link target => exact hplain.ne_link _ _ hentry

theorem statLink_ne_link (hplain : disk.IsPlain) (target : String) :
    disk.statLink path ≠ .ok (.link target) := by
  intro h
  obtain ⟨spot, hlocate, h⟩ : ∃ spot, disk.locate false path = .ok spot ∧
      (match spot with
        | .taken _ entry => (.ok entry : Except DiskError Entry)
        | .free _ => .error .missing) = .ok (.link target) := by
    rw [statLink] at h
    cases hlocate : disk.locate false path with
    | error error =>
      rw [hlocate] at h
      cases h
    | ok spot =>
      rw [hlocate] at h
      exact ⟨spot, rfl, h⟩
  cases spot with
  | free place => cases h
  | taken place entry =>
    cases h
    exact hplain.ne_link _ _ ((locate_eq_ok_iff.1 hlocate).2.bears.resolve_left (by simp))

/-! ## Resolving -/

/-- The place of a path that is anchored without a look at the disk. -/
def landing (disk : Disk) (path : Path) : Location :=
  walk [] (if path.isAbsolute then path.names else disk.workingDirectory ++ path.names)

theorem collapseNames_eq_walk (done names : List String) :
    collapseNames done names = walk done.reverse names := by
  induction names generalizing done with
  | nil => rfl
  | cons name rest ih =>
    by_cases h : name = ".."
    · rw [collapseNames, if_pos h, h, walk_cons_up, ih, List.dropLast_reverse]
    · rw [collapseNames, if_neg h, walk_cons_of_ne h, ih, List.reverse_cons]

theorem absolutePath_eq (disk : Disk) (path : Path) :
    disk.absolutePath path =
      ⟨if path.isAbsolute then path.anchor else .root, disk.landing path⟩ := by
  rw [absolutePath, collapseNames_eq_walk, landing, List.reverse_nil]
  cases path.isAbsolute <;> rfl

theorem landing_child (disk : Disk) (path : Path) (h : name ≠ "..") :
    disk.landing (path.child name) = disk.landing path ++ [name] := by
  have hchild : (path.child name).isAbsolute = path.isAbsolute := rfl
  rw [landing, landing, hchild]
  split
  · rw [Path.child, walk_append, walk_cons_of_ne h, walk_nil]
  · rw [Path.child, ← List.append_assoc, walk_append, walk_cons_of_ne h, walk_nil]

theorem landing_child_up (disk : Disk) (path : Path) :
    disk.landing (path.child "..") = (disk.landing path).dropLast := by
  have hchild : (path.child "..").isAbsolute = path.isAbsolute := rfl
  rw [landing, landing, hchild]
  split
  · rw [Path.child, walk_append, walk_cons_up, walk_nil]
  · rw [Path.child, ← List.append_assoc, walk_append, walk_cons_up, walk_nil]

/-- One level up leads one level up. -/
theorem landing_above (disk : Disk) (path : Path) :
    disk.landing (above path) = (disk.landing path).dropLast := by
  obtain ⟨anchor, names⟩ := path
  rcases List.eq_nil_or_concat names with rfl | ⟨init, name, rfl⟩
  · cases habsolute : Path.isAbsolute ⟨anchor, []⟩ with
    | true => simp [above, habsolute, landing]
    | false =>
      have habove : above ⟨anchor, []⟩ = Path.child ⟨anchor, []⟩ ".." := by
        simp [above, habsolute]
      rw [habove, landing_child_up]
  · rw [List.concat_eq_append]
    by_cases h : name = ".."
    · have habove : above ⟨anchor, init ++ [name]⟩ = Path.child ⟨anchor, init ++ [name]⟩ ".." := by
        simp [above, h]
      rw [habove, landing_child_up]
    · have habove : above ⟨anchor, init ++ [name]⟩ = ⟨anchor, init⟩ := by
        simp [above, h, Path.parent]
      have hchild : (⟨anchor, init ++ [name]⟩ : Path) = Path.child ⟨anchor, init⟩ name := rfl
      rw [habove, hchild, landing_child disk _ h, List.dropLast_concat]

theorem anchor_above (path : Path) : (above path).anchor = path.anchor := by
  rw [above]
  cases path.names.getLast? with
  | none =>
    dsimp only
    split <;> rfl
  | some name =>
    dsimp only
    split <;> rfl

/-- Resolving names on a disk without links meets no link, and leads where the names lead. -/
theorem resolveNames_of_isPlain (hplain : disk.IsPlain)
    (follow : SeenLinks → Path → String → RealPath) (seen : SeenLinks) (path : Path)
    (names : List String) :
    ((resolveNames disk follow seen path names).path.anchor = path.anchor) ∧
      disk.landing (resolveNames disk follow seen path names).path =
        walk (disk.landing path) (names.filter fun name => name != "" && name != ".") := by
  induction names generalizing path with
  | nil => exact ⟨rfl, rfl⟩
  | cons name rest ih =>
    rw [resolveNames]
    -- names that say nothing are passed over on both sides
    by_cases hempty : name = ""
    · simpa [hempty] using ih path
    by_cases hdot : name = "."
    · simpa [hdot] using ih path
    have hkept : ((name :: rest).filter fun name => name != "" && name != ".") =
        name :: rest.filter fun name => name != "" && name != "." := by
      rw [List.filter_cons_of_pos (by simp [hempty, hdot])]
    rw [if_neg (by simp [hempty, hdot]), hkept]
    by_cases hup : name = ".."
    · rw [if_pos hup, hup, walk_cons_up, ← landing_above, ← anchor_above path]
      exact ih (above path)
    · rw [if_neg hup, walk_cons_of_ne hup, ← landing_child disk path hup]
      -- no entry is a link, so resolving goes on whatever stands there
      cases hstep : disk.statLink (path.child name) with
      | error error =>
        simp only [hstep]
        exact ih (path.child name)
      | ok entry =>
        cases entry with
        | link target => exact absurd hstep (statLink_ne_link hplain target)
        | file content =>
          simp only [hstep]
          exact ih (path.child name)
        | directory =>
          simp only [hstep]
          exact ih (path.child name)

/-- A path is taken from the root or from the working directory. -/
theorem landing_eq_walk_base (disk : Disk) (path : Path) :
    disk.landing path =
      walk (disk.landing (if path.isAbsolute then ⟨.root, []⟩ else Path.here)) path.names := by
  rw [landing]
  cases path.isAbsolute with
  | true => rfl
  | false =>
    rw [if_neg Bool.false_ne_true, walk_append]
    simp [landing, Path.isAbsolute, Path.here]

/-- On a disk without links a path stands for the place where the names of its text lead. -/
theorem realPath_eq_landing (hplain : disk.IsPlain) (path : Path) :
    disk.realPath path = ⟨.root, disk.landing (Path.ofString path.toString)⟩ := by
  have hresolved : ∀ base : Path,
      disk.absolutePath (resolveNames disk (resolveText disk (2 * disk.entries.length + 1)) [] base
        (slashParts path.toString)).path =
      ⟨if base.isAbsolute then base.anchor else .root,
        walk (disk.landing base) (Path.ofString path.toString).names⟩ := by
    intro base
    obtain ⟨hanchor, hlanding⟩ := resolveNames_of_isPlain hplain
      (resolveText disk (2 * disk.entries.length + 1)) [] base (slashParts path.toString)
    rw [absolutePath_eq, hlanding, Path.isAbsolute, hanchor]
    rfl
  rw [realPath, resolveText, hresolved, ← landing_eq_walk_base]
  cases (Path.ofString path.toString).isAbsolute <;> rfl

theorem landing_eq_walk (hcwd : ∀ name ∈ disk.workingDirectory, name ≠ "..") (path : Path) :
    disk.landing path = walk (disk.startOf path) path.names := by
  rw [landing, startOf]
  split
  · rfl
  · rw [walk_append, walk_of_forall_ne hcwd, List.nil_append]

/-- On a disk without links a clean path stands for the place where its names lead. -/
theorem realPath_of_isPlain (hplain : disk.IsPlain)
    (hcwd : ∀ name ∈ disk.workingDirectory, name ≠ "..") (hpath : path.IsClean) :
    disk.realPath path = ⟨.root, walk (disk.startOf path) path.names⟩ := by
  rw [realPath_eq_landing hplain, Path.ofString_toString hpath, landing_eq_walk hcwd]

theorem locationOf_of_isPlain (hplain : disk.IsPlain)
    (hcwd : ∀ name ∈ disk.workingDirectory, name ≠ "..") (hpath : path.IsClean) :
    disk.locationOf path = walk (disk.startOf path) path.names := by
  rw [locationOf, realPath_of_isPlain hplain hcwd hpath]

theorem stat_ne_tooManyLinks (hplain : disk.IsPlain) :
    disk.stat path ≠ .error .tooManyLinks := by
  intro h
  rw [stat, locate] at h
  split at h
  · cases h
  · cases hlocate : locateFrom disk true (linkLimit + 1) (disk.startOf path) path.names with
    | error error =>
      rw [hlocate] at h
      cases h
      exact locateFrom_ne_tooManyLinks hplain hlocate
    | ok spot =>
      rw [hlocate] at h
      cases spot <;> cases h

/-- On a disk without links every path that is one at all can be resolved. -/
theorem resolve_of_isPlain (hplain : disk.IsPlain) (hnull : hasNull path = false) :
    disk.resolve path = .ok (disk.realPath path) := by
  rw [resolve, if_neg (by simp [hnull])]
  cases hstat : disk.stat (disk.realPath path) with
  | ok entry => simp only [hstat]
  | error error =>
    cases error with
    | tooManyLinks => exact absurd hstat (stat_ne_tooManyLinks hplain)
    | _ => simp only [hstat]

theorem realPath_eq (hplain : disk.IsPlain) (path : Path) :
    disk.realPath path = ⟨.root, disk.locationOf path⟩ := by
  rw [locationOf, realPath_eq_landing hplain]

theorem not_mem_of_hasNull (h : hasNull path = false) (hname : name ∈ path.names) :
    '\x00' ∉ name.toList := by
  rw [hasNull, List.any_eq_false] at h
  simpa using h name hname

theorem hasNull_of_resolve {real : Path} (h : disk.resolve path = .ok real) :
    hasNull path = false := by
  rw [resolve] at h
  cases hnull : hasNull path with
  | false => rfl
  | true =>
    rw [hnull, if_pos rfl] at h
    cases h

/-! ## Trees -/

/-- A disk whose entries form a tree without links: every entry stands in a directory, and under a
proper name. The working directory is one of the directories, and the home of the user is an
absolute path. -/
structure IsTree (disk : Disk) : Prop extends disk.IsPlain where
  ne_nil : ∀ item ∈ disk.entries, item.1 ≠ []
  proper : ∀ item ∈ disk.entries, ∀ name ∈ item.1, IsFileName name
  parent : ∀ item ∈ disk.entries, disk.entryAt? item.1.dropLast = some .directory
  workingDirectory : disk.entryAt? disk.workingDirectory = some .directory
  home_isAbsolute : disk.home.isAbsolute = true
  home_isClean : disk.home.IsClean

instance (disk : Disk) : Decidable disk.IsTree :=
  decidable_of_iff
    (((disk.entries.map Prod.fst).Nodup ∧
        ∀ item ∈ disk.entries, ∀ target, item.2 ≠ Entry.link target) ∧
      (∀ item ∈ disk.entries, item.1 ≠ []) ∧
      (∀ item ∈ disk.entries, ∀ name ∈ item.1, IsFileName name) ∧
      (∀ item ∈ disk.entries, disk.entryAt? item.1.dropLast = some .directory) ∧
      disk.entryAt? disk.workingDirectory = some .directory ∧
      disk.home.isAbsolute = true ∧ disk.home.IsClean)
    ⟨fun ⟨⟨hnodup, hlink⟩, hnil, hproper, hparent, hcwd, habsolute, hclean⟩ =>
      ⟨⟨hnodup, hlink⟩, hnil, hproper, hparent, hcwd, habsolute, hclean⟩,
      fun h => ⟨⟨h.nodup, h.noLink⟩, h.ne_nil, h.proper, h.parent, h.workingDirectory,
        h.home_isAbsolute, h.home_isClean⟩⟩

theorem IsTree.isFileName (htree : disk.IsTree) (h : disk.entryAt? place = some entry) :
    ∀ name ∈ place, IsFileName name := by
  by_cases hplace : place = []
  · simp [hplace]
  · exact htree.proper _ (mem_entries_of_entryAt? hplace h)

theorem IsTree.workingDirectory_ne_up (htree : disk.IsTree) :
    ∀ name ∈ disk.workingDirectory, name ≠ ".." :=
  fun name hname => (htree.isFileName htree.workingDirectory name hname).ne_up

theorem IsTree.locationOf_ne_up (htree : disk.IsTree) (hpath : path.IsClean) :
    ∀ name ∈ disk.locationOf path, name ≠ ".." := by
  rw [locationOf_of_isPlain htree.toIsPlain htree.workingDirectory_ne_up hpath]
  refine forall_walk_of_forall (fun name hname => ?_) fun _ _ hup => hup
  rw [startOf] at hname
  split at hname
  · cases hname
  · exact htree.workingDirectory_ne_up name hname

/-- What stands above an entry is a directory. -/
theorem IsTree.directory_of_append (htree : disk.IsTree) {below : Location} (hbelow : below ≠ [])
    (h : disk.entryAt? (place ++ below) = some entry) :
    disk.entryAt? place = some .directory := by
  induction below using List.reverseRecOn generalizing entry with
  | nil => exact absurd rfl hbelow
  | append_singleton below name ih =>
    have hparent := htree.parent _ (mem_entries_of_entryAt? (by simp) h)
    rw [← List.append_assoc, List.dropLast_concat] at hparent
    by_cases hnil : below = []
    · rwa [hnil, List.append_nil] at hparent
    · exact ih hnil hparent

/-- An entry that a tree grows by, in a directory and under a proper name, leaves it a tree. -/
theorem IsTree.put (htree : disk.IsTree) (hplace : place ≠ [])
    (hnames : ∀ name ∈ place, IsFileName name)
    (hparent : disk.entryAt? place.dropLast = some .directory)
    (hlink : ∀ target, entry ≠ .link target) (hgrows : disk.Grows (disk.put place entry)) :
    (disk.put place entry).IsTree where
  toIsPlain := htree.toIsPlain.put hlink
  ne_nil item hitem := by
    rcases mem_putEntry hitem with rfl | hitem
    · exact hplace
    · exact htree.ne_nil item hitem
  proper item hitem := by
    rcases mem_putEntry hitem with rfl | hitem
    · exact hnames
    · exact htree.proper item hitem
  parent item hitem := by
    rcases mem_putEntry hitem with rfl | hitem
    · exact hgrows.directory hparent
    · exact hgrows.directory (htree.parent item hitem)
  workingDirectory := hgrows.directory htree.workingDirectory
  home_isAbsolute := htree.home_isAbsolute
  home_isClean := htree.home_isClean

/-- In a tree a way to a free place ends in a directory. -/
theorem IsTree.directory_of_leads_free (htree : disk.IsTree) {last : Bool} {links : Nat}
    (hnames : ∀ name ∈ names, IsPathName name ∧ '\x00' ∉ name.toList)
    (hhere : disk.entryAt? here = some .directory)
    (h : Leads disk last links here names (.free place)) :
    disk.entryAt? place.dropLast = some .directory ∧ ∀ name ∈ place, IsFileName name := by
  -- the free place comes from the last name, and all before it stand for directories
  generalize hspot : Spot.free place = spot at h
  induction h with
  | here links here => cases hspot
  | @up links here rest spot _ ih =>
    refine ih (fun name hname => hnames name (List.mem_cons_of_mem _ hname)) ?_ hspot
    by_cases hnil : here = []
    · rwa [hnil] at hhere ⊢
    · exact htree.parent _ (mem_entries_of_entryAt? hnil hhere)
  | @free here name links hup hshort _ =>
    cases hspot
    obtain ⟨hname, hnull⟩ := hnames name List.mem_cons_self
    refine ⟨by rwa [List.dropLast_concat], fun other hother => ?_⟩
    rcases List.mem_append.1 hother with hother | hother
    · exact htree.isFileName hhere other hother
    · rw [List.mem_singleton.1 hother]
      exact ⟨hname, hup, hnull, Nat.not_lt.1 hshort⟩
  | directory _ _ hdirectory _ ih =>
    exact ih (fun name hname => hnames name (List.mem_cons_of_mem _ hname)) hdirectory hspot
  | file links _ _ _ => cases hspot
  | link links _ _ hentry _ => exact absurd hentry (htree.ne_link _ _)
  | follow _ _ hentry _ _ _ => exact absurd hentry (htree.ne_link _ _)

theorem IsTree.startOf (htree : disk.IsTree) (path : Path) :
    disk.entryAt? (disk.startOf path) = some .directory := by
  rw [Disk.startOf]
  split
  · rfl
  · exact htree.workingDirectory

/-- A free place that a path leads to can be filled. -/
theorem IsTree.put_of_locate_free (htree : disk.IsTree) {last : Bool} (hpath : path.IsClean)
    (h : disk.locate last path = .ok (.free place)) (hlink : ∀ target, entry ≠ .link target) :
    (disk.put place entry).IsTree := by
  obtain ⟨hnull, hleads⟩ := locate_eq_ok_iff.1 h
  have hfree := entryAt?_of_locate_free h
  have hplace := ne_nil_of_entryAt?_eq_none hfree
  obtain ⟨hparent, hnames⟩ := htree.directory_of_leads_free (fun name hname =>
    ⟨hpath name hname, not_mem_of_hasNull hnull hname⟩) (htree.startOf path) hleads
  refine htree.put hplace hnames hparent hlink (grows_put hplace fun old hold => ?_)
  rw [hfree] at hold
  cases hold

theorem IsTree.makeDirectories (htree : disk.IsTree) (hpath : path.IsClean) (depth : Nat) :
    (Disk.makeDirectories path depth disk).2.IsTree := by
  refine makeDirectories_keeps IsTree Path.IsClean (fun _ hpath => hpath.parent)
    (fun hpath htree hmake => ?_) hpath htree depth
  obtain ⟨place, hlocate, rfl⟩ := exists_of_makeDirectory hmake
  exact htree.put_of_locate_free hpath hlocate fun target => by simp

/-- Saving leaves a tree a tree. -/
theorem IsTree.save (htree : disk.IsTree) (hpath : path.IsClean) (content : Bytes) :
    (disk.save path content).2.IsTree := by
  have hbelow := htree.makeDirectories hpath.parent (path.parent.names.length + 1)
  rw [Disk.save, ensureDirectory]
  cases hparents : Disk.makeDirectories path.parent (path.parent.names.length + 1) disk with
  | mk answer below =>
    rw [hparents] at hbelow
    cases answer with
    | error error => exact hbelow
    | ok done =>
      dsimp only
      cases hwrite : below.write path content with
      | error error => exact hbelow
      | ok written =>
        -- the file that is written takes the place of another one, or a free place
        rw [write] at hwrite
        cases hopen : below.openForWriting path with
        | error error =>
          rw [hopen] at hwrite
          cases hwrite
        | ok opened =>
          obtain ⟨place, old⟩ := opened
          rw [hopen] at hwrite
          cases hwrite
          obtain ⟨-, hlocate | ⟨hlocate, -⟩⟩ := exists_of_openForWriting hopen
          · have hold := entryAt?_of_locate_file hlocate
            have hplace := ne_nil_of_entryAt?_file hold
            refine hbelow.put hplace (hbelow.isFileName hold)
              (hbelow.parent _ (mem_entries_of_entryAt? hplace hold)) (fun target => by simp)
              (grows_put hplace fun entry hentry => ?_)
            rw [hold] at hentry
            cases hentry
            exact .files old content
          · exact hbelow.put_of_locate_free hpath hlocate fun target => by simp

theorem hasNull_eq_false (h : ∀ name ∈ path.names, '\x00' ∉ name.toList) :
    hasNull path = false := by
  rw [hasNull, List.any_eq_false]
  intro name hname
  simpa using h name hname

/-- Directories lead down to what stands in the last one. -/
theorem leads_downwards {last : Bool} (links : Nat) (hnames : ∀ name ∈ names, IsFileName name)
    (hdirectories : ∀ above below, names = above ++ below → above ≠ [] → below ≠ [] →
      disk.entryAt? (here ++ above) = some .directory)
    {content : Bytes} (hentry : disk.entryAt? (here ++ names) = some (.file content))
    (hne : names ≠ []) :
    Leads disk last (links + 1) here names (.taken (here ++ names) (.file content)) := by
  induction names generalizing here with
  | nil => exact absurd rfl hne
  | cons name rest ih =>
    rw [List.forall_mem_cons] at hnames
    have hshort := Nat.not_lt.2 hnames.1.short
    by_cases hrest : rest = []
    · subst hrest
      exact .file links hnames.1.ne_up hshort hentry
    · rw [← List.singleton_append (x := name), ← List.append_assoc] at hentry ⊢
      refine .directory hnames.1.ne_up hshort
        (hdirectories [name] rest rfl (by simp) hrest)
        (ih hnames.2 (fun above below hsplit habove hbelow => ?_) hentry hrest)
      rw [List.append_assoc]
      exact hdirectories (name :: above) below (by rw [hsplit, List.cons_append]) (by simp) hbelow

/-- The path of a file of a tree leads to it. -/
theorem IsTree.locate_file (htree : disk.IsTree) {last : Bool} {content : Bytes}
    (h : disk.entryAt? place = some (.file content)) :
    disk.locate last ⟨.root, place⟩ = .ok (.taken place (.file content)) := by
  have hnames := htree.isFileName h
  refine locate_eq_ok_iff.2 ⟨hasNull_eq_false fun name hname => (hnames name hname).no_null, ?_⟩
  have hdirectories : ∀ above below, place = above ++ below → above ≠ [] → below ≠ [] →
      disk.entryAt? ([] ++ above) = some .directory := by
    intro above below hsplit _ hbelow
    rw [hsplit] at h
    exact htree.directory_of_append hbelow h
  have hleads : Leads disk last (linkLimit + 1) [] place (.taken ([] ++ place) (.file content)) :=
    leads_downwards linkLimit hnames hdirectories h (ne_nil_of_entryAt?_file h)
  exact hleads

/-- On a disk without links paths can be resolved when they are paths at all. -/
theorem mapM_resolve_eq_ok_iff (hplain : disk.IsPlain) {ε : Type} {failure : PathError → ε}
    {paths reals : List Path} :
    (paths.mapM fun path => (disk.resolve path).mapError failure) = .ok reals ↔
      (∀ path ∈ paths, hasNull path = false) ∧ reals = paths.map disk.realPath := by
  have hresolve : (∀ path ∈ paths, hasNull path = false) →
      (paths.mapM fun path => (disk.resolve path).mapError failure) =
        .ok (paths.map disk.realPath) :=
    fun hnull => mapM_eq_ok fun path hpath =>
      mapError_eq_ok_iff.2 (resolve_of_isPlain hplain (hnull path hpath))
  constructor
  · intro h
    have hnull : ∀ path ∈ paths, hasNull path = false := by
      intro path hpath
      obtain ⟨real, hreal⟩ := forall_of_mapM_eq_ok h path hpath
      exact hasNull_of_resolve (mapError_eq_ok_iff.1 hreal)
    refine ⟨hnull, ?_⟩
    rw [hresolve hnull] at h
    exact (Except.ok.inj h).symm
  · rintro ⟨hnull, rfl⟩
    exact hresolve hnull

/-- In a tree the path of an entry stands for its place. -/
theorem IsTree.resolve_entry (htree : disk.IsTree) (h : disk.entryAt? place = some entry) :
    disk.resolve ⟨.root, place⟩ = .ok ⟨.root, place⟩ := by
  have hnames := htree.isFileName h
  rw [resolve_of_isPlain htree.toIsPlain
      (hasNull_eq_false fun name hname => (hnames name hname).no_null),
    realPath_of_isPlain htree.toIsPlain htree.workingDirectory_ne_up
      fun name hname => (hnames name hname).toIsPathName]
  have hstart : disk.startOf ⟨.root, place⟩ = [] := rfl
  rw [hstart, walk_of_forall_ne fun name hname => (hnames name hname).ne_up, List.nil_append]

/-! ## Trees that grow -/

variable {before after : Disk}

/-- In a tree a path stands for the same place, also when the tree has grown. -/
theorem Grows.locationOf (hbefore : before.IsTree) (hafter : after.IsTree)
    (hgrows : before.Grows after) (hpath : path.IsClean) :
    after.locationOf path = before.locationOf path := by
  rw [locationOf_of_isPlain hbefore.toIsPlain hbefore.workingDirectory_ne_up hpath,
    locationOf_of_isPlain hafter.toIsPlain hafter.workingDirectory_ne_up hpath, hgrows.startOf_eq]

/-- In a tree a path can be resolved as before when the tree has grown. -/
theorem Grows.resolve (hbefore : before.IsTree) (hafter : after.IsTree)
    (hgrows : before.Grows after) (hpath : path.IsClean) :
    after.resolve path = before.resolve path := by
  cases hnull : hasNull path with
  | true => rw [Disk.resolve, Disk.resolve, hnull, if_pos rfl, if_pos rfl]
  | false =>
    rw [resolve_of_isPlain hbefore.toIsPlain hnull, resolve_of_isPlain hafter.toIsPlain hnull,
      realPath_eq hbefore.toIsPlain, realPath_eq hafter.toIsPlain,
      hgrows.locationOf hbefore hafter hpath]

theorem Grows.expandHome (hgrows : before.Grows after) (path : Path) :
    after.expandHome path = before.expandHome path := by
  rw [Disk.expandHome.eq_def, Disk.expandHome.eq_def, hgrows.home]

end Disk

end Minifier
