import Minifier.Proofs.Disk.Growth

/-!
# How a disk refuses

A path without the null character is at least a path: whatever the disk refuses to do with it, it
refuses for a reason of its own (`Disk.isFromDisk_of_readProtected`, `Disk.isFromDisk_of_save`).
-/

set_option autoImplicit false

namespace Minifier

namespace Disk

variable {disk : Disk} {path : Path} {error : DiskError}

theorem isFromDisk_of_locateFrom {last : Bool} {links : Nat} {here : Location}
    {names : List String} (h : locateFrom disk last links here names = .error error) :
    error.isFromDisk = true := by
  -- on the links that may be followed, and between two of them on the names
  induction links generalizing here names with
  | zero =>
    cases h
    rfl
  | succ links ihlinks =>
    induction names generalizing here with
    | nil => cases h
    | cons name rest ih =>
      by_cases hup : name = ".."
      · rw [hup, locateFrom_cons_up] at h
        exact ih h
      by_cases hlong : nameLimit < name.utf8ByteSize
      · rw [locateFrom_cons_of_long hup hlong] at h
        cases h
        rfl
      cases hentry : disk.entryAt? (here ++ [name]) with
      | none =>
        rw [locateFrom_cons_of_none hup hlong hentry] at h
        split at h
        · cases h
        · cases h
          rfl
      | some entry =>
        cases entry with
        | directory =>
          rw [locateFrom_cons_of_directory hup hlong hentry] at h
          exact ih h
        | file content =>
          rw [locateFrom_cons_of_file hup hlong hentry] at h
          split at h
          · cases h
          · cases h
            rfl
        | link target =>
          rw [locateFrom_cons_of_link hup hlong hentry] at h
          split at h
          · cases h
          · exact ihlinks h

theorem isFromDisk_of_locate {last : Bool} (hnull : hasNull path = false)
    (h : disk.locate last path = .error error) : error.isFromDisk = true := by
  rw [locate, if_neg (by simp [hnull])] at h
  exact isFromDisk_of_locateFrom h

theorem isFromDisk_of_stat (hnull : hasNull path = false) (h : disk.stat path = .error error) :
    error.isFromDisk = true := by
  rw [stat] at h
  cases hlocate : disk.locate true path with
  | error other =>
    rw [hlocate] at h
    cases h
    exact isFromDisk_of_locate hnull hlocate
  | ok spot =>
    rw [hlocate] at h
    cases spot with
    | taken place entry => cases h
    | free place =>
      cases h
      rfl

/-- A path that cannot be read is refused by the disk. -/
theorem isFromDisk_of_readProtected (hnull : hasNull path = false)
    (h : disk.readProtected path = .error error) : error.isFromDisk = true := by
  rw [readProtected] at h
  split at h
  · cases h
    rfl
  · rw [read] at h
    cases hstat : disk.stat path with
    | error other =>
      rw [hstat] at h
      cases h
      exact isFromDisk_of_stat hnull hstat
    | ok entry =>
      rw [hstat] at h
      cases entry with
      | file content => cases h
      | directory =>
        cases h
        rfl
      | link target =>
        cases h
        rfl

/-! ## Writing -/

theorem hasNull_parent (hnull : hasNull path = false) : hasNull path.parent = false := by
  rw [hasNull, List.any_eq_false] at hnull ⊢
  exact fun name hname => hnull name (List.dropLast_subset _ hname)

theorem isFromDisk_of_makeDirectory (hnull : hasNull path = false)
    (h : disk.makeDirectory path = .error error) : error.isFromDisk = true := by
  rw [makeDirectory] at h
  cases hlocate : disk.locate false path with
  | error other =>
    rw [hlocate] at h
    cases h
    exact isFromDisk_of_locate hnull hlocate
  | ok spot =>
    rw [hlocate] at h
    cases spot with
    | taken place entry =>
      cases h
      rfl
    | free place => cases h

theorem isFromDisk_of_isDirectory? (hnull : hasNull path = false)
    (h : disk.isDirectory? path = .error error) : error.isFromDisk = true := by
  rw [isDirectory?, probe] at h
  cases hstat : disk.stat path with
  | ok entry =>
    rw [hstat] at h
    cases h
  | error other =>
    have hdisk := isFromDisk_of_stat hnull hstat
    rw [hstat] at h
    cases other <;> cases h <;> exact hdisk

/-- Whether a name that is too long names a directory cannot be seen. -/
theorem isDirectory?_of_long {name : String} (hnull : hasNull ⟨.working, [name]⟩ = false)
    (hup : name ≠ "..") (hlong : nameLimit < name.utf8ByteSize) :
    disk.isDirectory? ⟨.working, [name]⟩ = .error .nameTooLong := by
  have hlocate : disk.locate true ⟨.working, [name]⟩ = .error .nameTooLong := by
    rw [locate, if_neg (by simp [hnull])]
    exact locateFrom_cons_of_long hup hlong
  rw [isDirectory?, probe, stat, hlocate]
  rfl

theorem isFromDisk_of_excuse {reason : DiskError} (hnull : hasNull path = false)
    (hreason : reason.isFromDisk = true) (h : disk.excuse path reason = .error error) :
    error.isFromDisk = true := by
  -- an error that is not excused is that of looking at the path, or the one that there was
  have hask : ∀ reason : DiskError, reason.isFromDisk = true →
      (do if ← disk.isDirectory? path then return () else throw reason :
        Except DiskError Unit) = .error error → error.isFromDisk = true := by
    intro reason hreason h
    cases hdirectory : disk.isDirectory? path with
    | error other =>
      rw [hdirectory] at h
      cases h
      exact isFromDisk_of_isDirectory? hnull hdirectory
    | ok answer =>
      rw [hdirectory] at h
      cases answer with
      | true => cases h
      | false =>
        cases h
        exact hreason
  cases reason with
  | missing =>
    cases h
    rfl
  | nullInName => cases hreason
  | notADirectory => exact hask _ rfl h
  | isADirectory => exact hask _ rfl h
  | alreadyThere => exact hask _ rfl h
  | denied => exact hask _ rfl h
  | tooManyLinks => exact hask _ rfl h
  | nameTooLong => exact hask _ rfl h

theorem isFromDisk_of_makeDirectories {depth : Nat} (hnull : hasNull path = false)
    (h : (makeDirectories path depth disk).1 = .error error) : error.isFromDisk = true := by
  induction depth generalizing path disk error with
  | zero =>
    cases h
    rfl
  | succ depth ih =>
    rw [makeDirectories] at h
    cases hmake : disk.makeDirectory path with
    | ok made =>
      rw [hmake] at h
      cases h
    | error reason =>
      have hreason := isFromDisk_of_makeDirectory hnull hmake
      rw [hmake] at h
      by_cases hmissing : reason = .missing
      · subst hmissing
        dsimp only at h
        split at h
        · cases h
          rfl
        · cases hparents : makeDirectories path.parent depth disk with
          | mk answer below =>
            -- the parents fail by themselves, or the directory fails once they are there
            have hparent : ∀ error, (makeDirectories path.parent depth disk).1 = .error error →
                error.isFromDisk = true :=
              fun error => ih (hasNull_parent hnull)
            rw [hparents] at h hparent
            cases answer with
            | error other => exact hparent error h
            | ok done =>
              dsimp only at h
              cases hmake' : below.makeDirectory path with
              | ok made =>
                rw [hmake'] at h
                cases h
              | error other =>
                rw [hmake'] at h
                exact isFromDisk_of_excuse hnull (isFromDisk_of_makeDirectory hnull hmake') h
      · have hexcuse : disk.excuse path reason = .error error := by
          cases reason with
          | missing => exact absurd rfl hmissing
          | _ => exact h
        exact isFromDisk_of_excuse hnull hreason hexcuse

theorem isFromDisk_of_openForWriting (hnull : hasNull path = false)
    (h : disk.openForWriting path = .error error) : error.isFromDisk = true := by
  rw [openForWriting] at h
  cases hlocate : disk.locate true path with
  | error other =>
    rw [hlocate] at h
    cases h
    exact isFromDisk_of_locate hnull hlocate
  | ok spot =>
    rw [hlocate] at h
    cases spot with
    | free place =>
      by_cases hdenied : disk.unwritable.contains place
      · simp only [bind, Except.bind, if_pos hdenied] at h
        cases h
        rfl
      · simp only [bind, Except.bind, if_neg hdenied] at h
        cases h
    | taken place entry =>
      cases entry with
      | directory =>
        cases h
        rfl
      | link target =>
        cases h
        rfl
      | file old =>
        by_cases hdenied : disk.unwritable.contains place
        · simp only [bind, Except.bind, if_pos hdenied] at h
          cases h
          rfl
        · simp only [bind, Except.bind, if_neg hdenied] at h
          cases h

/-- A path that cannot be written is refused by the disk. -/
theorem isFromDisk_of_save {content : Bytes} (hnull : hasNull path = false)
    (h : (disk.save path content).1 = .error error) : error.isFromDisk = true := by
  rw [save, ensureDirectory] at h
  cases hparents : makeDirectories path.parent (path.parent.names.length + 1) disk with
  | mk answer furnished =>
    rw [hparents] at h
    cases answer with
    | error other =>
      cases h
      exact isFromDisk_of_makeDirectories (hasNull_parent hnull) (by rw [hparents])
    | ok done =>
      dsimp only at h
      rw [write] at h
      cases hopen : furnished.openForWriting path with
      | ok opened =>
        rw [hopen] at h
        cases h
      | error other =>
        rw [hopen] at h
        cases h
        exact isFromDisk_of_openForWriting hnull hopen

end Disk

end Minifier
