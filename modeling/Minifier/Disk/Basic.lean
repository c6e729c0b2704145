import Minifier.Path
import Minifier.Text.Utf8

/-!
# Disks

A disk is a list of entries, each at the names that lead to it from the root. The root itself is a
directory that needs no entry. Some places may not be read, and some may not be written.
-/

set_option autoImplicit false

namespace Minifier

/-- The names that lead from the root to a place, without links. -/
abbrev Location := List String

/-- What stands at a place. -/
inductive Entry where
  | file (content : Bytes)
  | directory
  | link (target : String)
  deriving DecidableEq, Repr

/-- Whether an entry is a regular file. -/
def Entry.isFile : Entry → Bool
  | .file _ => true
  | _ => false

/-- Whether an entry is a directory. -/
def Entry.isDirectory : Entry → Bool
  | .directory => true
  | _ => false

/-- A file tree, with the directory that relative paths start at, the home of the user, and the
places that may not be read or written. -/
structure Disk where
  entries : List (Location × Entry)
  workingDirectory : Location
  home : Path
  unreadable : List Location := []
  unwritable : List Location := []
  deriving DecidableEq, Repr

/-- Why a place cannot be used. -/
inductive DiskError where
  | missing
  | notADirectory
  | isADirectory
  | alreadyThere
  | denied
  | tooManyLinks
  | nameTooLong
  | nullInName
  deriving DecidableEq, Repr

/-- Whether an error comes from the disk, and not from a text that is no path at all. -/
def DiskError.isFromDisk : DiskError → Bool
  | .nullInName => false
  | _ => true

/-- Why a path cannot be used: no one knows the home that it starts at, it leads through links
without end, or the disk refuses it. -/
inductive PathError where
  | unknownHome
  | linkLoop (path : Path)
  | disk (error : DiskError)
  deriving DecidableEq, Repr

namespace Disk

/-- What stands at a place, if anything. -/
def entryAt? (disk : Disk) (place : Location) : Option Entry :=
  if place.isEmpty then some .directory else disk.entries.lookup place

/-- Puts an entry into a list: in the place of the one at the same location, or last. -/
def putEntry (place : Location) (entry : Entry) : List (Location × Entry) → List (Location × Entry)
  | [] => [(place, entry)]
  | (other, old) :: rest =>
    if other = place then (place, entry) :: rest else (other, old) :: putEntry place entry rest

/-- The disk with an entry put at a place. -/
def put (disk : Disk) (place : Location) (entry : Entry) : Disk :=
  { disk with entries := putEntry place entry disk.entries }

/-- The names and entries directly below a place. -/
def entriesBelow (disk : Disk) (place : Location) : List (String × Entry) :=
  disk.entries.filterMap fun (location, entry) =>
    match location.getLast? with
    | some name => if location.dropLast = place then some (name, entry) else none
    | none => none

/-- The regular files of a disk. -/
def files (disk : Disk) : List (Location × Bytes) :=
  disk.entries.filterMap fun (location, entry) =>
    match entry with
    | .file content => some (location, content)
    | _ => none

@[simp]
theorem lookup_putEntry_self (place : Location) (entry : Entry)
    (entries : List (Location × Entry)) :
    (putEntry place entry entries).lookup place = some entry := by
  induction entries with
  | nil => simp [putEntry]
  | cons first rest ih =>
    obtain ⟨other, old⟩ := first
    by_cases h : other = place
    · simp [putEntry, h]
    · simp [putEntry, h, List.lookup_cons, beq_eq_false_iff_ne.mpr (Ne.symm h), ih]

theorem lookup_putEntry_of_ne {place other : Location} (entry : Entry)
    (entries : List (Location × Entry)) (h : other ≠ place) :
    (putEntry place entry entries).lookup other = entries.lookup other := by
  induction entries with
  | nil => simp [putEntry, List.lookup_cons, beq_eq_false_iff_ne.mpr h]
  | cons first rest ih =>
    obtain ⟨location, old⟩ := first
    by_cases hl : location = place
    · subst hl
      simp [putEntry, List.lookup_cons, beq_eq_false_iff_ne.mpr h]
    · simp [putEntry, hl, List.lookup_cons, ih]

end Disk

end Minifier
