import Mathlib.Data.List.Basic
import Minifier.Disk.Access

/-!
# What writing does to a disk

Making directories and writing files only adds to a disk: a directory stays a directory, a link
keeps its target, and a file stays a file, though its content may change (`Disk.Grows`). So a path
that leads to an entry leads to the same place ever after (`Disk.Grows.locate`). Making directories
touches no file (`Disk.Furnished`), and saving either puts the content at the one place that its
path leads to, or touches no file (`Disk.save_cases`).

The way from a place along names to a spot, through at most a number of links, is described by
`Disk.Leads`; it is what `Disk.locate` follows (`Disk.locateFrom_eq_ok_iff`).
-/

set_option autoImplicit false

namespace Minifier

/-- Entries of one sort: an entry and itself, or two regular files. -/
inductive Entry.Alike : Entry → Entry → Prop where
  | same (entry : Entry) : Alike entry entry
  | files (content content' : Bytes) : Alike (.file content) (.file content')

theorem Entry.Alike.trans {a b c : Entry} (hab : a.Alike b) (hbc : b.Alike c) : a.Alike c := by
  cases hab with
  | same => exact hbc
  | files content content' =>
    cases hbc with
    | same => exact .files content content'
    | files _ content'' => exact .files content content''

namespace Disk

variable {disk before after : Disk} {place other : Location} {entry : Entry} {path : Path}

/-! ## Entries and contents -/

/-- The content of the regular file at a place, if there is one. -/
def contentAt? (disk : Disk) (place : Location) : Option Bytes :=
  match disk.entryAt? place with
  | some (.file content) => some content
  | _ => none

theorem contentAt?_eq_some_iff {content : Bytes} :
    disk.contentAt? place = some content ↔ disk.entryAt? place = some (.file content) := by
  rw [contentAt?]
  cases disk.entryAt? place with
  | none => simp
  | some entry => cases entry <;> simp

theorem entryAt?_put_self (disk : Disk) (entry : Entry) (hplace : place ≠ []) :
    (disk.put place entry).entryAt? place = some entry := by
  rw [entryAt?, if_neg (by simpa using hplace), put, lookup_putEntry_self]

theorem entryAt?_put_of_ne (disk : Disk) (entry : Entry) (h : other ≠ place) :
    (disk.put place entry).entryAt? other = disk.entryAt? other := by
  rw [entryAt?, entryAt?, put, lookup_putEntry_of_ne entry disk.entries h]

theorem ne_nil_of_entryAt?_eq_none (h : disk.entryAt? place = none) : place ≠ [] := by
  rintro rfl
  cases h

theorem ne_nil_of_entryAt?_file {content : Bytes}
    (h : disk.entryAt? place = some (.file content)) : place ≠ [] := by
  rintro rfl
  cases h

/-- Putting a file changes the content at its place and at no other. -/
theorem contentAt?_put_file (disk : Disk) (content : Bytes) (hplace : place ≠ []) :
    (disk.put place (.file content)).contentAt? other =
      if other = place then some content else disk.contentAt? other := by
  by_cases h : other = place
  · rw [if_pos h, contentAt?_eq_some_iff, h, entryAt?_put_self disk _ hplace]
  · rw [if_neg h, contentAt?, contentAt?, entryAt?_put_of_ne disk _ h]

/-- A directory at a free place changes no content. -/
theorem contentAt?_put_directory (h : disk.entryAt? place = none) :
    (disk.put place .directory).contentAt? other = disk.contentAt? other := by
  by_cases hother : other = place
  · rw [hother, contentAt?, contentAt?,
      entryAt?_put_self disk _ (ne_nil_of_entryAt?_eq_none h), h]
  · rw [contentAt?, contentAt?, entryAt?_put_of_ne disk _ hother]

/-! ## Steps of a way

What stands at the first of some names says how a way along them goes on. -/

section Steps

variable {last : Bool} {links : Nat} {here : Location} {name : String} {rest : List String}

theorem locateFrom_cons_up :
    locateFrom disk last (links + 1) here (".." :: rest) =
      locateFrom disk last (links + 1) here.dropLast rest :=
  rfl

theorem locateFrom_cons_of_long (hup : name ≠ "..") (hlong : nameLimit < name.utf8ByteSize) :
    locateFrom disk last (links + 1) here (name :: rest) = .error .nameTooLong := by
  rw [locateFrom, locateNames, if_neg hup, if_pos hlong]

variable (hup : name ≠ "..") (hshort : ¬ nameLimit < name.utf8ByteSize)
include hup hshort

theorem locateFrom_cons_of_none (h : disk.entryAt? (here ++ [name]) = none) :
    locateFrom disk last (links + 1) here (name :: rest) =
      if rest.isEmpty then .ok (.free (here ++ [name])) else .error .missing := by
  rw [locateFrom, locateNames, if_neg hup, if_neg hshort]
  simp only [h]

theorem locateFrom_cons_of_directory (h : disk.entryAt? (here ++ [name]) = some .directory) :
    locateFrom disk last (links + 1) here (name :: rest) =
      locateFrom disk last (links + 1) (here ++ [name]) rest := by
  rw [locateFrom, locateNames, if_neg hup, if_neg hshort]
  simp only [h]

theorem locateFrom_cons_of_file {content : Bytes}
    (h : disk.entryAt? (here ++ [name]) = some (.file content)) :
    locateFrom disk last (links + 1) here (name :: rest) =
      if rest.isEmpty then .ok (.taken (here ++ [name]) (.file content))
      else .error .notADirectory := by
  rw [locateFrom, locateNames, if_neg hup, if_neg hshort]
  simp only [h]

theorem locateFrom_cons_of_link {target : String}
    (h : disk.entryAt? (here ++ [name]) = some (.link target)) :
    locateFrom disk last (links + 1) here (name :: rest) =
      if rest.isEmpty && !last then .ok (.taken (here ++ [name]) (.link target))
      else locateFrom disk last links (if (Path.ofString target).isAbsolute then [] else here)
        ((Path.ofString target).names ++ rest) := by
  rw [locateFrom, locateNames, if_neg hup, if_neg hshort]
  simp only [h]

end Steps

/-! ## Ways -/

/-- The way from a place along names leads to a spot, through fewer links than a given number. The
link that the last name leads to is followed only if `last` says so. -/
inductive Leads (disk : Disk) (last : Bool) : Nat → Location → List String → Spot → Prop where
  | here (links : Nat) (here : Location) :
      Leads disk last (links + 1) here [] (.taken here .directory)
  | up {links : Nat} {here : Location} {rest : List String} {spot : Spot} :
      Leads disk last (links + 1) here.dropLast rest spot →
        Leads disk last (links + 1) here (".." :: rest) spot
  | free {here : Location} {name : String} (links : Nat) :
      name ≠ ".." → ¬ nameLimit < name.utf8ByteSize → disk.entryAt? (here ++ [name]) = none →
        Leads disk last (links + 1) here [name] (.free (here ++ [name]))
  | directory {links : Nat} {here : Location} {name : String} {rest : List String} {spot : Spot} :
      name ≠ ".." → ¬ nameLimit < name.utf8ByteSize →
        disk.entryAt? (here ++ [name]) = some .directory →
          Leads disk last (links + 1) (here ++ [name]) rest spot →
            Leads disk last (links + 1) here (name :: rest) spot
  | file {here : Location} {name : String} {content : Bytes} (links : Nat) :
      name ≠ ".." → ¬ nameLimit < name.utf8ByteSize →
        disk.entryAt? (here ++ [name]) = some (.file content) →
          Leads disk last (links + 1) here [name] (.taken (here ++ [name]) (.file content))
  | link {here : Location} {name target : String} (links : Nat) :
      name ≠ ".." → ¬ nameLimit < name.utf8ByteSize →
        disk.entryAt? (here ++ [name]) = some (.link target) → last = false →
          Leads disk last (links + 1) here [name] (.taken (here ++ [name]) (.link target))
  | follow {links : Nat} {here : Location} {name target : String} {rest : List String}
      {spot : Spot} :
      name ≠ ".." → ¬ nameLimit < name.utf8ByteSize →
        disk.entryAt? (here ++ [name]) = some (.link target) → (rest.isEmpty && !last) = false →
          Leads disk last links (if (Path.ofString target).isAbsolute then [] else here)
              ((Path.ofString target).names ++ rest) spot →
            Leads disk last (links + 1) here (name :: rest) spot

/-- What can be followed from a place is a way to a spot. -/
theorem leads_of_locateFrom {last : Bool} {links : Nat} {here : Location} {names : List String}
    {spot : Spot} (h : locateFrom disk last links here names = .ok spot) :
    Leads disk last links here names spot := by
  -- on the links that may be followed, and between two of them on the names
  induction links generalizing here names with
  | zero => cases h
  | succ links ihlinks =>
    induction names generalizing here with
    | nil =>
      cases h
      exact .here links here
    | cons name rest ih =>
      by_cases hup : name = ".."
      · rw [hup, locateFrom_cons_up] at h
        exact hup ▸ .up (ih h)
      by_cases hlong : nameLimit < name.utf8ByteSize
      · rw [locateFrom_cons_of_long hup hlong] at h
        cases h
      cases hentry : disk.entryAt? (here ++ [name]) with
      | none =>
        rw [locateFrom_cons_of_none hup hlong hentry] at h
        cases rest with
        | nil =>
          cases h
          exact .free links hup hlong hentry
        | cons next rest => cases h
      | some entry =>
        cases entry with
        | directory =>
          rw [locateFrom_cons_of_directory hup hlong hentry] at h
          exact .directory hup hlong hentry (ih h)
        | file content =>
          rw [locateFrom_cons_of_file hup hlong hentry] at h
          cases rest with
          | nil =>
            cases h
            exact .file links hup hlong hentry
          | cons next rest => cases h
        | link target =>
          rw [locateFrom_cons_of_link hup hlong hentry] at h
          cases hlast : rest.isEmpty && !last with
          | true =>
            rw [hlast, if_pos rfl] at h
            rw [Bool.and_eq_true, List.isEmpty_iff, Bool.not_eq_true'] at hlast
            obtain ⟨rfl, hlast⟩ := hlast
            cases h
            exact .link links hup hlong hentry hlast
          | false =>
            rw [hlast, if_neg Bool.false_ne_true] at h
            exact .follow hup hlong hentry hlast (ihlinks h)

theorem locateFrom_of_leads {last : Bool} {links : Nat} {here : Location} {names : List String}
    {spot : Spot} (h : Leads disk last links here names spot) :
    locateFrom disk last links here names = .ok spot := by
  induction h with
  | here links here => rfl
  | up _ ih => rw [locateFrom_cons_up, ih]
  | free links hup hshort hentry => exact locateFrom_cons_of_none hup hshort hentry
  | directory hup hshort hentry _ ih => rw [locateFrom_cons_of_directory hup hshort hentry, ih]
  | file links hup hshort hentry => exact locateFrom_cons_of_file hup hshort hentry
  | link links hup hshort hentry hlast =>
    rw [locateFrom_cons_of_link hup hshort hentry, hlast]
    rfl
  | follow hup hshort hentry hlast _ ih =>
    rw [locateFrom_cons_of_link hup hshort hentry, hlast, if_neg Bool.false_ne_true, ih]

theorem locateFrom_eq_ok_iff {last : Bool} {links : Nat} {here : Location} {names : List String}
    {spot : Spot} :
    locateFrom disk last links here names = .ok spot ↔ Leads disk last links here names spot :=
  ⟨leads_of_locateFrom, locateFrom_of_leads⟩

theorem locate_eq_ok_iff {last : Bool} {spot : Spot} :
    disk.locate last path = .ok spot ↔
      hasNull path = false ∧
        Leads disk last (linkLimit + 1) (disk.startOf path) path.names spot := by
  rw [locate, ← locateFrom_eq_ok_iff]
  cases hasNull path <;> simp

/-- Whether what a spot says of its place is so. Of a directory nothing is asked, since a way can
start at a place that is not there. -/
def Bears (disk : Disk) : Spot → Prop
  | .taken place entry => entry = .directory ∨ disk.entryAt? place = some entry
  | .free place => disk.entryAt? place = none

/-- At the end of a way stands what it leads to. -/
theorem Leads.bears {last : Bool} {links : Nat} {here : Location} {names : List String}
    {spot : Spot} (h : Leads disk last links here names spot) : disk.Bears spot := by
  induction h with
  | here links here => exact Or.inl rfl
  | up _ ih => exact ih
  | free links _ _ hentry => exact hentry
  | directory _ _ _ _ ih => exact ih
  | file links _ _ hentry => exact Or.inr hentry
  | link links _ _ hentry _ => exact Or.inr hentry
  | follow _ _ _ _ _ ih => exact ih

theorem entryAt?_of_locate_file {last : Bool} {content : Bytes}
    (h : disk.locate last path = .ok (.taken place (.file content))) :
    disk.entryAt? place = some (.file content) :=
  (locate_eq_ok_iff.1 h).2.bears.resolve_left (by simp)

theorem entryAt?_of_locate_free {last : Bool} (h : disk.locate last path = .ok (.free place)) :
    disk.entryAt? place = none :=
  (locate_eq_ok_iff.1 h).2.bears

/-- A way to a free place leads to what is put there, unless that is a link. -/
theorem Leads.put {last : Bool} {links : Nat} {here : Location} {names : List String}
    (hentry : ∀ target, entry ≠ .link target)
    (h : Leads disk last links here names (.free place)) :
    Leads (disk.put place entry) last links here names (.taken place entry) := by
  have hfree : disk.entryAt? place = none := h.bears
  have hkept : ∀ {other kept}, disk.entryAt? other = some kept →
      (disk.put place entry).entryAt? other = some kept := by
    intro other kept hother
    rw [entryAt?_put_of_ne disk entry, hother]
    rintro rfl
    rw [hfree] at hother
    cases hother
  -- only the last step comes to the free place, all others see entries that are kept
  generalize hspot : Spot.free place = spot at h
  induction h with
  | here links here => cases hspot
  | up _ ih => exact .up (ih hspot)
  | free links hup hlong hnone =>
    cases hspot
    have hput := entryAt?_put_self disk entry (ne_nil_of_entryAt?_eq_none hnone)
    cases entry with
    | file content => exact .file links hup hlong hput
    | directory => exact .directory hup hlong hput (.here links _)
    | link target => exact absurd rfl (hentry target)
  | directory hup hlong hdirectory _ ih => exact .directory hup hlong (hkept hdirectory) (ih hspot)
  | file links hup hlong hfile => cases hspot
  | link links hup hlong hlink hlast => cases hspot
  | follow hup hlong hlink hlast _ ih => exact .follow hup hlong (hkept hlink) hlast (ih hspot)

/-! ## Growth -/

/-- What a disk can become by making directories and writing files. -/
structure Grows (before after : Disk) : Prop where
  workingDirectory : after.workingDirectory = before.workingDirectory
  home : after.home = before.home
  unreadable : after.unreadable = before.unreadable
  unwritable : after.unwritable = before.unwritable
  kept : ∀ {place entry}, before.entryAt? place = some entry →
    ∃ entry', after.entryAt? place = some entry' ∧ entry.Alike entry'

theorem Grows.refl (disk : Disk) : disk.Grows disk :=
  ⟨rfl, rfl, rfl, rfl, fun h => ⟨_, h, .same _⟩⟩

theorem Grows.trans {a b c : Disk} (hab : a.Grows b) (hbc : b.Grows c) : a.Grows c where
  workingDirectory := hbc.workingDirectory.trans hab.workingDirectory
  home := hbc.home.trans hab.home
  unreadable := hbc.unreadable.trans hab.unreadable
  unwritable := hbc.unwritable.trans hab.unwritable
  kept h := by
    obtain ⟨entry', h', halike⟩ := hab.kept h
    obtain ⟨entry'', h'', halike'⟩ := hbc.kept h'
    exact ⟨entry'', h'', halike.trans halike'⟩

/-- A disk grows by an entry at a free place, and by a file in the place of another one. -/
theorem grows_put (hplace : place ≠ [])
    (h : ∀ old, disk.entryAt? place = some old → old.Alike entry) :
    disk.Grows (disk.put place entry) where
  workingDirectory := rfl
  home := rfl
  unreadable := rfl
  unwritable := rfl
  kept {other old} hold := by
    by_cases hother : other = place
    · subst hother
      exact ⟨entry, entryAt?_put_self disk entry hplace, h old hold⟩
    · exact ⟨old, by rw [entryAt?_put_of_ne disk entry hother, hold], .same old⟩

/-- A path starts at the same place when the disk has grown. -/
theorem Grows.startOf_eq (h : before.Grows after) (path : Path) :
    after.startOf path = before.startOf path := by
  rw [startOf, startOf, h.workingDirectory]

theorem Grows.directory (h : before.Grows after)
    (hbefore : before.entryAt? place = some .directory) :
    after.entryAt? place = some .directory := by
  obtain ⟨entry, hafter, halike⟩ := h.kept hbefore
  cases halike
  exact hafter

theorem Grows.leads (hgrows : before.Grows after) {last : Bool} {links : Nat} {here : Location}
    {names : List String} (h : Leads before last links here names (.taken place entry)) :
    ∃ entry', Leads after last links here names (.taken place entry') ∧ entry.Alike entry' := by
  -- a step goes on in the same way, since directories and links are kept as they are
  generalize hspot : Spot.taken place entry = spot at h
  induction h with
  | here links here =>
    cases hspot
    exact ⟨.directory, .here links _, .same _⟩
  | up _ ih =>
    obtain ⟨entry', hleads, halike⟩ := ih hspot
    exact ⟨entry', .up hleads, halike⟩
  | free links hup hlong hnone => cases hspot
  | directory hup hlong hdirectory _ ih =>
    obtain ⟨entry', hleads, halike⟩ := ih hspot
    exact ⟨entry', .directory hup hlong (hgrows.directory hdirectory) hleads, halike⟩
  | file links hup hlong hfile =>
    cases hspot
    obtain ⟨entry', hafter, halike⟩ := hgrows.kept hfile
    cases halike with
    | same => exact ⟨_, .file links hup hlong hafter, .same _⟩
    | files _ new => exact ⟨_, .file links hup hlong hafter, .files _ new⟩
  | link links hup hlong hlink hlast =>
    cases hspot
    obtain ⟨entry', hafter, halike⟩ := hgrows.kept hlink
    cases halike
    exact ⟨_, .link links hup hlong hafter hlast, .same _⟩
  | follow hup hlong hlink hlast _ ih =>
    obtain ⟨entry', hafter, halike⟩ := hgrows.kept hlink
    cases halike
    obtain ⟨entry', hleads, halike⟩ := ih hspot
    exact ⟨entry', .follow hup hlong hafter hlast hleads, halike⟩

/-- On a disk that has grown, a path leads to where it led to before. -/
theorem Grows.locate (hgrows : before.Grows after) {last : Bool}
    (h : before.locate last path = .ok (.taken place entry)) :
    ∃ entry', after.locate last path = .ok (.taken place entry') ∧ entry.Alike entry' := by
  obtain ⟨hnull, hleads⟩ := locate_eq_ok_iff.1 h
  obtain ⟨entry', hleads, halike⟩ := hgrows.leads hleads
  refine ⟨entry', locate_eq_ok_iff.2 ⟨hnull, ?_⟩, halike⟩
  rwa [hgrows.startOf_eq]

/-- A path to a file leads to what the file holds by then. -/
theorem Grows.locate_file (hgrows : before.Grows after) {last : Bool} {content : Bytes}
    (h : before.locate last path = .ok (.taken place (.file content))) :
    ∃ content', after.contentAt? place = some content' ∧
      after.locate last path = .ok (.taken place (.file content')) := by
  obtain ⟨entry, hlocate, halike⟩ := hgrows.locate h
  cases halike with
  | same => exact ⟨content, contentAt?_eq_some_iff.2 (entryAt?_of_locate_file hlocate), hlocate⟩
  | files _ content' =>
    exact ⟨content', contentAt?_eq_some_iff.2 (entryAt?_of_locate_file hlocate), hlocate⟩

/-! ## Making directories -/

/-- A disk with directories at places that were free. -/
inductive Furnished (disk : Disk) : Disk → Prop where
  | refl : Furnished disk disk
  | step {middle : Disk} {place : Location} : Furnished disk middle → middle.entryAt? place = none →
      Furnished disk (middle.put place .directory)

theorem Furnished.trans {a b c : Disk} (hab : a.Furnished b) (hbc : b.Furnished c) :
    a.Furnished c := by
  induction hbc with
  | refl => exact hab
  | step _ hfree ih => exact .step ih hfree

theorem Furnished.grows (h : before.Furnished after) : before.Grows after := by
  induction h with
  | refl => exact Grows.refl before
  | step _ hfree ih =>
    refine ih.trans (grows_put (ne_nil_of_entryAt?_eq_none hfree) fun old hold => ?_)
    rw [hfree] at hold
    cases hold

theorem Furnished.contentAt? (h : before.Furnished after) :
    after.contentAt? place = before.contentAt? place := by
  induction h with
  | refl => rfl
  | step _ hfree ih => rw [contentAt?_put_directory hfree, ih]

/-- A directory is made at a free place. -/
theorem exists_of_makeDirectory {made : Disk} (h : disk.makeDirectory path = .ok made) :
    ∃ place, disk.locate false path = .ok (.free place) ∧ made = disk.put place .directory := by
  rw [makeDirectory] at h
  cases hlocate : disk.locate false path with
  | error error =>
    rw [hlocate] at h
    cases h
  | ok spot =>
    rw [hlocate] at h
    cases spot with
    | taken place entry => cases h
    | free place =>
      cases h
      exact ⟨place, rfl, rfl⟩

theorem furnished_of_makeDirectory {made : Disk} (h : disk.makeDirectory path = .ok made) :
    disk.Furnished made := by
  obtain ⟨place, hlocate, rfl⟩ := exists_of_makeDirectory h
  exact .step .refl (entryAt?_of_locate_free hlocate)

/-- What making one directory keeps, at paths of some kind that have their parents among them,
making a directory with all above it keeps. -/
theorem makeDirectories_keeps (holds : Disk → Prop) (kind : Path → Prop)
    (hparent : ∀ path, kind path → kind path.parent)
    (hstep : ∀ {path disk made}, kind path → holds disk → makeDirectory disk path = .ok made →
      holds made)
    (hpath : kind path) (hdisk : holds disk) (depth : Nat) :
    holds (makeDirectories path depth disk).2 := by
  induction depth generalizing path disk with
  | zero => exact hdisk
  | succ depth ih =>
    rw [makeDirectories]
    cases hmake : disk.makeDirectory path with
    | ok made => exact hstep hpath hdisk hmake
    | error error =>
      cases error with
      | missing =>
        dsimp only
        split
        · exact hdisk
        · -- the parents are made first, and then the directory is tried once more
          have hbelow := ih (hparent path hpath) hdisk
          cases hparents : makeDirectories path.parent depth disk with
          | mk answer below =>
            rw [hparents] at hbelow
            cases answer with
            | error error => exact hbelow
            | ok done =>
              dsimp only
              cases hmake' : below.makeDirectory path with
              | ok made => exact hstep hpath hbelow hmake'
              | error error => exact hbelow
      | _ => exact hdisk

theorem furnished_makeDirectories (path : Path) (depth : Nat) (disk : Disk) :
    disk.Furnished (makeDirectories path depth disk).2 :=
  makeDirectories_keeps disk.Furnished (fun _ => True) (fun _ _ => trivial)
    (fun _ hbelow hmake => hbelow.trans (furnished_of_makeDirectory hmake)) trivial .refl depth

/-! ## Writing -/

theorem exists_of_openForWriting {content : Bytes}
    (h : disk.openForWriting path = .ok (place, content)) :
    place ∉ disk.unwritable ∧
      (disk.locate true path = .ok (.taken place (.file content)) ∨
        disk.locate true path = .ok (.free place) ∧ content = []) := by
  rw [openForWriting] at h
  cases hlocate : disk.locate true path with
  | error error =>
    rw [hlocate] at h
    cases h
  | ok spot =>
    rw [hlocate] at h
    cases spot with
    | taken found entry =>
      cases entry with
      | directory => cases h
      | link target => cases h
      | file old =>
        by_cases hdenied : disk.unwritable.contains found
        · simp only [bind, Except.bind, if_pos hdenied] at h
          cases h
        · simp only [bind, Except.bind, if_neg hdenied] at h
          cases h
          exact ⟨by simpa using hdenied, Or.inl rfl⟩
    | free found =>
      by_cases hdenied : disk.unwritable.contains found
      · simp only [bind, Except.bind, if_pos hdenied] at h
        cases h
      · simp only [bind, Except.bind, if_neg hdenied] at h
        cases h
        exact ⟨by simpa using hdenied, Or.inr ⟨rfl, rfl⟩⟩

/-- A file put at a place that was opened for writing stands where at most a file stood, and the
path leads to it. -/
theorem put_of_openForWriting {old : Bytes} (h : disk.openForWriting path = .ok (place, old))
    (content : Bytes) :
    place ≠ [] ∧ (∀ entry, disk.entryAt? place = some entry → entry.Alike (.file content)) ∧
      (disk.put place (.file content)).locate true path = .ok (.taken place (.file content)) := by
  obtain ⟨-, hlocate | ⟨hlocate, -⟩⟩ := exists_of_openForWriting h
  · have hold := entryAt?_of_locate_file hlocate
    have hplace := ne_nil_of_entryAt?_file hold
    have halike : ∀ entry, disk.entryAt? place = some entry → entry.Alike (.file content) := by
      intro entry hentry
      rw [hold] at hentry
      cases hentry
      exact .files old content
    obtain ⟨content', hcontent, hfound⟩ := (grows_put hplace halike).locate_file hlocate
    rw [contentAt?_put_file disk content hplace, if_pos rfl] at hcontent
    cases hcontent
    exact ⟨hplace, halike, hfound⟩
  · have hfree := entryAt?_of_locate_free hlocate
    refine ⟨ne_nil_of_entryAt?_eq_none hfree, fun entry hentry => ?_, ?_⟩
    · rw [hfree] at hentry
      cases hentry
    · obtain ⟨hnull, hleads⟩ := locate_eq_ok_iff.1 hlocate
      exact locate_eq_ok_iff.2 ⟨hnull, hleads.put fun target => by simp⟩

/-- Writing puts the content at the place that the path leads to, where at most a file stood. -/
theorem exists_of_write {content : Bytes} {written : Disk}
    (h : disk.write path content = .ok written) :
    ∃ place, place ≠ [] ∧ (∀ old, disk.entryAt? place = some old → old.Alike (.file content)) ∧
      written = disk.put place (.file content) ∧
        written.locate true path = .ok (.taken place (.file content)) := by
  rw [write] at h
  cases hopen : disk.openForWriting path with
  | error error =>
    rw [hopen] at h
    cases h
  | ok opened =>
    obtain ⟨place, old⟩ := opened
    rw [hopen] at h
    cases h
    obtain ⟨hplace, halike, hlocate⟩ := put_of_openForWriting hopen content
    exact ⟨place, hplace, halike, rfl, hlocate⟩

/-- What was opened for adding can be added to from then on. -/
theorem exists_of_append {bytes : Bytes} {written : Disk}
    (h : disk.append path bytes = .ok written) :
    disk.Grows written ∧ ∃ place content, place ∉ written.unwritable ∧
      written.locate true path = .ok (.taken place (.file content)) := by
  rw [append] at h
  cases hopen : disk.openForWriting path with
  | error error =>
    rw [hopen] at h
    cases h
  | ok opened =>
    obtain ⟨place, old⟩ := opened
    rw [hopen] at h
    cases h
    obtain ⟨hplace, halike, hlocate⟩ := put_of_openForWriting hopen (old ++ bytes)
    have hwritable := (exists_of_openForWriting hopen).1
    exact ⟨grows_put hplace halike, place, old ++ bytes, hwritable, hlocate⟩

/-- Adding to a file puts the bytes behind what it holds. -/
theorem append_of_locate_file {content : Bytes}
    (hlocate : disk.locate true path = .ok (.taken place (.file content)))
    (hwritable : place ∉ disk.unwritable) (bytes : Bytes) :
    disk.append path bytes = .ok (disk.put place (.file (content ++ bytes))) := by
  have hopen : disk.openForWriting path = .ok (place, content) := by
    rw [openForWriting, hlocate]
    exact if_neg (by simpa using hwritable)
  rw [append, hopen]
  rfl

/-- Saving writes the file after the directories above it, or it fails and has at most made
directories. -/
theorem save_cases (disk : Disk) (path : Path) (content : Bytes) :
    (∃ furnished place, disk.Furnished furnished ∧ place ≠ [] ∧
        (∀ old, furnished.entryAt? place = some old → old.Alike (.file content)) ∧
        disk.save path content = (.ok (), furnished.put place (.file content)) ∧
          (furnished.put place (.file content)).locate true path =
            .ok (.taken place (.file content))) ∨
      ∃ error furnished, disk.Furnished furnished ∧
        disk.save path content = (.error error, furnished) := by
  have hfurnished := furnished_makeDirectories path.parent (path.parent.names.length + 1) disk
  rw [save, ensureDirectory]
  cases hparents : makeDirectories path.parent (path.parent.names.length + 1) disk with
  | mk answer furnished =>
    rw [hparents] at hfurnished
    cases answer with
    | error error => exact Or.inr ⟨error, furnished, hfurnished, rfl⟩
    | ok done =>
      dsimp only
      cases hwrite : furnished.write path content with
      | error error => exact Or.inr ⟨error, furnished, hfurnished, rfl⟩
      | ok written =>
        obtain ⟨place, hplace, halike, rfl, hlocate⟩ := exists_of_write hwrite
        exact Or.inl ⟨furnished, place, hfurnished, hplace, halike, rfl, hlocate⟩

/-! ## Reading -/

theorem read_eq_ok_iff {content : Bytes} :
    disk.read path = .ok content ↔
      ∃ place, disk.locate true path = .ok (.taken place (.file content)) := by
  rw [read, stat]
  cases disk.locate true path with
  | error error => simp [bind, Except.bind]
  | ok spot =>
    cases spot with
    | free place => simp [bind, Except.bind, throw, throwThe, MonadExceptOf.throw]
    | taken place entry =>
      cases entry <;> simp [bind, Except.bind, pure, Except.pure, throw, throwThe,
        MonadExceptOf.throw]

/-- What was saved is read back. -/
theorem read_of_save {content : Bytes} (h : (disk.save path content).1.isOk = true) :
    (disk.save path content).2.read path = .ok content := by
  rcases disk.save_cases path content with
    ⟨furnished, place, -, -, -, hsave, hlocate⟩ | ⟨error, furnished, -, hsave⟩
  · rw [hsave]
    exact read_eq_ok_iff.2 ⟨place, hlocate⟩
  · rw [hsave] at h
    cases h

end Disk

end Minifier
