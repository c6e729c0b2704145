import Minifier.Proofs.Run.Mirror
import Minifier.Proofs.Text.Size

/-!
# Saved bytes

The bytes that a run saves are computed from texts, not from files: a file is read, its text is
minified, and the sizes of both texts are subtracted. They are nevertheless what the disk shows: the
sizes that the counted files have before the run, less the sizes that their outputs have after it
(`Run.saved_bytes_are_on_disk`).
-/

set_option autoImplicit false

namespace Minifier

/-- The number of bytes in the file that a path leads to. -/
def Disk.sizeOf (disk : Disk) (path : Path) : Except DiskError Nat :=
  (disk.read path).map List.length

theorem Disk.sizeOf_eq_ok {disk : Disk} {path : Path} {bytes : Bytes}
    (h : disk.read path = .ok bytes) : disk.sizeOf path = .ok bytes.length := by
  rw [sizeOf, h]
  rfl

/-- A file is minified from what it holds even if it may be protected. -/
theorem Disk.read_of_readProtected {disk : Disk} {path : Path} {bytes : Bytes}
    (h : disk.readProtected path = .ok bytes) : disk.read path = .ok bytes := by
  rw [readProtected] at h
  split at h
  · cases h
  · exact h

namespace Run

open Discovery Job

variable {rules : Option RuleSet} {source target place : Path} {output : Option Path}
  {files : List SourceFile} {before after disk : Disk} {base : Location} {omissions : Omissions}
  {summary : Summary} {s t u : Session}

/-! ## Sizes on the disk -/

/-- A summary counts some files, each given with the path of its output: the bytes saved are the
sizes of these files on the disk before, less the sizes of their outputs on the disk after. -/
structure ShowsSaving (before after : Disk) (counted : List (Path × Path)) (summary : Summary) :
    Prop where
  succeeded : summary.succeeded = counted.length
  exists_sizes : ∃ sizes : List (ℕ × ℕ),
    List.Forall₂ (fun paths sizes =>
      before.sizeOf paths.1 = .ok sizes.1 ∧ after.sizeOf paths.2 = .ok sizes.2) counted sizes ∧
    summary.bytesSaved = (sizes.map fun sizes => (sizes.1 : ℤ) - sizes.2).sum

/-- Nothing is saved on no files. -/
theorem ShowsSaving.nil (hsucceeded : summary.succeeded = 0) (hsaved : summary.bytesSaved = 0) :
    ShowsSaving before after [] summary :=
  ⟨hsucceeded, [], .nil, hsaved⟩

/-- The paths of a file and of its output. -/
def pathsOf (target : Path) (file : SourceFile) : Path × Path :=
  (file.path, outputOf target file)

/-- What a file is minified from is what it holds. -/
theorem exists_read_of_attempt {file : SourceFile} {content minified : Text}
    (h : attempt rules file disk = .done content minified) :
    ∃ bytes, disk.read file.path = .ok bytes ∧ Utf8.decode bytes = content := by
  rw [attempt] at h
  split at h
  · split at h <;> cases h
  · rename_i bytes hread
    split at h
    · injection h with hcontent
      exact ⟨bytes, Disk.read_of_readProtected hread, hcontent⟩
    · cases h

/-- Outcomes whose contents and texts are on the disk show what they save. -/
theorem showsSaving_ofOutcomes {outcomes : List (SourceFile × Outcome)}
    (h : ∀ file content minified, (file, .done content minified) ∈ outcomes →
      before.sizeOf file.path = .ok content.byteSize ∧
        after.sizeOf (outputOf target file) = .ok minified.byteSize) :
    ShowsSaving before after
      ((outcomes.filter fun result => result.2.isDone).map fun result => pathsOf target result.1)
      (Summary.ofOutcomes outcomes) := by
  refine ⟨?_, ?_⟩
  · rw [List.length_map, ← List.countP_eq_length_filter]
    rfl
  · induction outcomes with
    | nil => exact ⟨[], .nil, rfl⟩
    | cons result outcomes ih =>
      obtain ⟨sizes, hsizes, hsaved⟩ :=
        ih fun file content minified hmem => h file content minified (List.mem_cons_of_mem _ hmem)
      obtain ⟨file, outcome⟩ := result
      have hcons : (Summary.ofOutcomes ((file, outcome) :: outcomes)).bytesSaved =
          outcome.saved + (Summary.ofOutcomes outcomes).bytesSaved := rfl
      rw [hcons, hsaved]
      -- only a file that is done adds its sizes
      cases outcome with
      | skipped => exact ⟨sizes, hsizes, Int.zero_add _⟩
      | failed => exact ⟨sizes, hsizes, Int.zero_add _⟩
      | done content minified =>
        exact ⟨(content.byteSize, minified.byteSize) :: sizes,
          .cons (h file content minified List.mem_cons_self) hsizes, rfl⟩

/-! ## Runs over a directory -/

/-- The files that a run delivers, each by itself. -/
def delivered (rules : Option RuleSet) (target : Path) (files : List SourceFile) (disk : Disk) :
    List SourceFile :=
  ((inTurn false rules target files disk).filter (isDelivered rules target disk)).map Prod.fst

section Turns

variable (htree : disk.IsTree) (htarget : target.IsClean)
  (hskipped : disk.locationOf target ∈ omissions.directories)
  (houtside : ¬ disk.locationOf target <+: base)
  (hfiles : ∀ file ∈ files, ∃ names, IsSource disk omissions base file names)

include htree htarget hskipped houtside hfiles

/-- The files that are done are the delivered ones. -/
theorem map_filter_isDone_settleAll :
    ((settleAll false rules target files disk).1.filter fun result => result.2.isDone).map
        Prod.fst =
      delivered rules target files disk := by
  rw [settleAll_fst, List.filter_map, List.map_map, delivered]
  congr 1
  refine List.filter_congr fun turn hturn => ?_
  exact isDone_settled_iff (attempt_of_mem_inTurn htree htarget hskipped houtside hfiles hturn)

/-- A file that is done was read from its place, and its output can be read where it was saved. -/
theorem sizes_of_mem_settleAll {file : SourceFile} {content minified : Text}
    (h : (file, .done content minified) ∈ (settleAll false rules target files disk).1) :
    disk.sizeOf file.path = .ok content.byteSize ∧
      (settleAll false rules target files disk).2.sizeOf (outputOf target file) =
        .ok minified.byteSize := by
  have hattempt := (attempt_of_mem_settleAll htree htarget hskipped houtside hfiles h).2
  have hwritten := (forall_isWritten_iff rules target files disk).2
    (agree_settleAll htree htarget hskipped houtside hfiles) _ h minified rfl
  refine ⟨?_, ?_⟩
  -- decoding keeps the size of what was read, and encoding that of what is written
  · obtain ⟨bytes, hread, hcontent⟩ := exists_read_of_attempt hattempt
    rw [Disk.sizeOf_eq_ok hread, ← hcontent, Utf8.byteSize_decode]
  · rw [Disk.sizeOf_eq_ok hwritten, Utf8.length_encode]

end Turns

/-- A run over a directory saves what the disk shows. -/
theorem showsSaving_of_gives_directory (htree : s.disk.IsTree) (hlog : s.log.file = none)
    (hsource : source.IsClean) (houtput : ∀ path, output = some path → path.IsClean)
    (hplace : s.disk.expandHome source = .ok place) {found : Except String (List SourceFile)}
    (hsurvey : Gives (survey false rules source output) s (target, found) u)
    (h : Gives (directory rules source output) s summary t)
    (houtside : ¬ s.disk.locationOf target <+: s.disk.locationOf place) :
    ShowsSaving s.disk t.disk
      ((delivered rules target (filesFound found) s.disk).map (pathsOf target)) summary := by
  have h : Gives (overDirectory false rules source output) s summary t := h
  cases found with
  | error message =>
    obtain ⟨rfl, -⟩ := eq_of_gives_overDirectory_of_error hlog hsurvey h
    exact .nil rfl rfl
  | ok files =>
    have hsurveyed := (reads_survey false rules source output).answer_eq hlog hsurvey
    have htarget := isClean_of_surveyed htree houtput (fun hfalse => by cases hfalse) hsurveyed
    obtain ⟨-, omissions, hskipped, hfiles⟩ :=
      exists_omissions_of_surveyed htree hsource hplace hsurveyed
    obtain ⟨-, hconcluded⟩ := eq_of_gives_overDirectory hlog hsurvey h
    obtain ⟨rfl, hdisk⟩ := Prod.mk.inj (Except.ok.inj hconcluded)
    have hsizes : ∀ file content minified,
        (file, .done content minified) ∈ (settleAll false rules target files s.disk).1 →
          s.disk.sizeOf file.path = .ok content.byteSize ∧
            (settleAll false rules target files s.disk).2.sizeOf (outputOf target file) =
              .ok minified.byteSize :=
      fun file content minified hdone =>
        sizes_of_mem_settleAll htree htarget hskipped houtside hfiles hdone
    have hshows := showsSaving_ofOutcomes hsizes
    -- the files that are counted as minified are just those that are delivered
    have hcounted : (delivered rules target files s.disk).map (pathsOf target) =
        ((settleAll false rules target files s.disk).1.filter fun result => result.2.isDone).map
          fun result => pathsOf target result.1 := by
      rw [← map_filter_isDone_settleAll htree htarget hskipped houtside hfiles, List.map_map]
      rfl
    rw [hdisk, ← hcounted] at hshows
    exact ⟨hshows.succeeded, hshows.exists_sizes⟩

/-! ## Runs over one file -/

/-- A run over one file saves what the disk shows, wherever its output is. -/
theorem showsSaving_of_gives_single (hlog : s.log.file = none)
    (hplace : s.disk.expandHome source = .ok place)
    (h : Gives (single source output) s summary t) :
    ShowsSaving s.disk t.disk
      (if summary.succeeded = 0 then [] else [(place, targetOf place output)]) summary := by
  rcases single_cases hlog h with ⟨message, rfl, -, -⟩ | ⟨message, -, error, rfl, -⟩ |
    ⟨place', kind, bytes, hplace', -, hbytes, -, rfl, hdisk⟩
  · exact .nil rfl rfl
  · exact .nil rfl rfl
  · cases hplace.symm.trans hplace'
    rcases s.disk.save_cases (targetOf place output)
      (Utf8.encode (minify kind (Utf8.decode bytes))) with
        ⟨furnished, written, -, -, -, hsave, hlocate⟩ | ⟨error, furnished, -, hsave⟩
    · have hbefore := Disk.sizeOf_eq_ok (Disk.read_of_readProtected hbytes)
      have hafter := Disk.sizeOf_eq_ok (Disk.read_eq_ok_iff.2 ⟨written, hlocate⟩)
      rw [← Utf8.byteSize_decode] at hbefore
      rw [Utf8.length_encode] at hafter
      rw [hdisk, hsave]
      exact ⟨rfl, [(_, _)], .cons ⟨hbefore, hafter⟩ .nil, (Int.add_zero _).symm⟩
    · rw [hsave]
      exact .nil rfl rfl

/-- The bytes that a run saves are what the disk shows. A run over one file counts it when it is
written, and a run over the directory of a tree, to an output that is neither the source nor above
it, counts the files that it delivers. The bytes saved are the sizes that these files have before
the run, less the sizes that their outputs have after it. -/
theorem saved_bytes_are_on_disk (hlog : s.log.file = none)
    (hplace : s.disk.expandHome source = .ok place) :
    (∀ {summary : Summary} {t : Session}, Gives (single source output) s summary t →
      ShowsSaving s.disk t.disk
        (if summary.succeeded = 0 then [] else [(place, targetOf place output)]) summary) ∧
    ∀ {rules : Option RuleSet} {target : Path} {found : Except String (List SourceFile)}
      {summary : Summary} {t u : Session},
      s.disk.IsTree → source.IsClean → (∀ path, output = some path → path.IsClean) →
      Gives (survey false rules source output) s (target, found) u →
      Gives (directory rules source output) s summary t →
      ¬ s.disk.locationOf target <+: s.disk.locationOf place →
        ShowsSaving s.disk t.disk
          ((delivered rules target (filesFound found) s.disk).map (pathsOf target)) summary :=
  ⟨fun h => showsSaving_of_gives_single hlog hplace h,
    fun htree hsource houtput hsurvey h houtside =>
      showsSaving_of_gives_directory htree hlog hsource houtput hplace hsurvey h houtside⟩

/-- On the file of `oneFile`, three bytes long, one byte is saved, also when its output lies inside
its directory. -/
theorem one_byte_is_saved_on_disk : ∃ summary t,
    Gives (directory none ⟨.root, ["src"]⟩ (some ⟨.root, ["src", "out"]⟩)) (oneFile "a.js" false)
        summary t ∧ summary.bytesSaved = 1 ∧
      ShowsSaving (oneFile "a.js" false).disk t.disk
        [(⟨.root, ["src", "a.js"]⟩, ⟨.root, ["src", "out", "a.js"]⟩)] summary := by
  have htree : (oneFile "a.js" false).disk.IsTree := by decide +kernel
  have hplace : (oneFile "a.js" false).disk.expandHome ⟨.root, ["src"]⟩ = .ok ⟨.root, ["src"]⟩ :=
    rfl
  have hsurvey : ((survey false none ⟨.root, ["src"]⟩ (some ⟨.root, ["src", "out"]⟩)).run
      (oneFile "a.js" false)).1 = .ok (⟨.root, ["src", "out"]⟩, .ok [onlyScript]) := by
    decide +kernel
  have hrun : ((directory none ⟨.root, ["src"]⟩ (some ⟨.root, ["src", "out"]⟩)).run
      (oneFile "a.js" false)).1 = .ok {
        total := 1, succeeded := 1, bytesSaved := 1
        outputPath := some ⟨.root, ["src", "out"]⟩ } := by
    decide +kernel
  have hshows := (saved_bytes_are_on_disk rfl hplace).2 htree (by decide) (by decide)
    (gives_of_run hsurvey) (gives_of_run hrun) (by decide +kernel)
  have hcounted : (delivered none ⟨.root, ["src", "out"]⟩ (filesFound (.ok [onlyScript]))
      (oneFile "a.js" false).disk).map (pathsOf ⟨.root, ["src", "out"]⟩) =
        [(⟨.root, ["src", "a.js"]⟩, ⟨.root, ["src", "out", "a.js"]⟩)] := by
    decide +kernel
  rw [hcounted] at hshows
  exact ⟨_, _, gives_of_run hrun, rfl, hshows⟩

end Run

end Minifier
