import Mathlib.Data.List.Nodup
import Minifier.Proofs.Disk.Tree

/-!
# The order of entries

A disk may list its entries in any order (`Disk.Reordered`). What stands at a place, where a path
leads and what it stands for does not depend on that order, since all of it is read off
`Disk.entryAt?`.
-/

set_option autoImplicit false

namespace Minifier

namespace Disk

/-- A disk with the entries of another one, listed in an order of its own. -/
structure Reordered (disk other : Disk) : Prop where
  entries : other.entries.Perm disk.entries
  workingDirectory : other.workingDirectory = disk.workingDirectory
  home : other.home = disk.home
  nodup : (disk.entries.map Prod.fst).Nodup

namespace Reordered

variable {disk other : Disk} (h : disk.Reordered other)

include h

theorem nodup_other : (other.entries.map Prod.fst).Nodup :=
  (h.entries.map Prod.fst).nodup_iff.2 h.nodup

theorem symm : other.Reordered disk where
  entries := h.entries.symm
  workingDirectory := h.workingDirectory.symm
  home := h.home.symm
  nodup := h.nodup_other

theorem entryAt? (place : Location) : other.entryAt? place = disk.entryAt? place := by
  by_cases hplace : place = []
  · rw [hplace]
    rfl
  · refine Option.ext fun entry => ⟨fun hentry => ?_, fun hentry => ?_⟩
    · exact entryAt?_of_mem_entries h.nodup hplace
        (h.entries.subset (mem_entries_of_entryAt? hplace hentry))
    · exact entryAt?_of_mem_entries h.nodup_other hplace
        (h.entries.symm.subset (mem_entries_of_entryAt? hplace hentry))

theorem locateNames (follow : Location → List String → Except DiskError Spot) (last : Bool)
    (here : Location) (names : List String) :
    other.locateNames follow last here names = disk.locateNames follow last here names := by
  induction names generalizing here with
  | nil => rfl
  | cons name rest ih => simp only [Disk.locateNames, h.entryAt?, ih]

theorem locateFrom (last : Bool) (links : Nat) :
    other.locateFrom last links = disk.locateFrom last links := by
  induction links with
  | zero => rfl
  | succ links ih =>
    funext here names
    rw [Disk.locateFrom, Disk.locateFrom, ih, h.locateNames]

theorem locate (last : Bool) (path : Path) : other.locate last path = disk.locate last path := by
  rw [Disk.locate, Disk.locate, h.locateFrom, Disk.startOf, Disk.startOf, h.workingDirectory]

theorem stat (path : Path) : other.stat path = disk.stat path := by
  rw [Disk.stat, Disk.stat, h.locate]

theorem statLink (path : Path) : other.statLink path = disk.statLink path := by
  rw [Disk.statLink, Disk.statLink, h.locate]

theorem isDirectory? (path : Path) : other.isDirectory? path = disk.isDirectory? path := by
  rw [Disk.isDirectory?, Disk.isDirectory?, probe, probe, h.stat]

theorem exists? (path : Path) : other.exists? path = disk.exists? path := by
  rw [Disk.exists?, Disk.exists?, probe, probe, h.stat]

theorem resolveNames (follow : SeenLinks → Path → String → RealPath) (seen : SeenLinks)
    (path : Path) (names : List String) :
    other.resolveNames follow seen path names = disk.resolveNames follow seen path names := by
  induction names generalizing seen path with
  | nil => rfl
  | cons name rest ih => simp only [Disk.resolveNames, h.statLink, ih]

theorem resolveText (depth : Nat) : other.resolveText depth = disk.resolveText depth := by
  induction depth with
  | zero => rfl
  | succ depth ih =>
    funext seen path text
    rw [Disk.resolveText, Disk.resolveText, ih, h.resolveNames]

theorem realPath (path : Path) : other.realPath path = disk.realPath path := by
  rw [Disk.realPath, Disk.realPath, h.resolveText, h.entries.length_eq, absolutePath, absolutePath,
    h.workingDirectory]

theorem resolve (path : Path) : other.resolve path = disk.resolve path := by
  simp only [Disk.resolve, h.realPath, h.stat]

theorem expandHome (path : Path) : other.expandHome path = disk.expandHome path := by
  rw [Disk.expandHome.eq_def, Disk.expandHome.eq_def, h.home]

end Reordered

end Disk

end Minifier
