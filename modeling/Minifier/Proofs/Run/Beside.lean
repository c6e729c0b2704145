import Minifier.Proofs.Run.Apart
import Minifier.Proofs.Run.Ending

/-!
# Outputs beside the source

Where no output is given, a run that writes each file by itself writes to the directory beside its
source and skips that one. A run that puts all files into one writes a file in there, and skips
both. No scan finds anything in that directory unless it begins there, so both runs find the same
files (`Run.Begins.surveyed_beside`).
-/

set_option autoImplicit false

namespace Minifier

/-- Names from the root of a tree down lead where they say. -/
theorem Disk.IsTree.locationOf_root {disk : Disk} {names : Location} (htree : disk.IsTree)
    (hnames : ∀ name ∈ names, IsPathName name ∧ name ≠ "..") :
    disk.locationOf ⟨.root, names⟩ = names := by
  rw [locationOf_of_isPlain htree.toIsPlain htree.workingDirectory_ne_up
    fun name hname => (hnames name hname).1]
  exact walk_of_forall_ne fun name hname => (hnames name hname).2

namespace Run

open Discovery

variable {rules : Option RuleSet} {source : Path} {files : List SourceFile}
  {directories skipped : List Path} {suffixes : List String} {name : String} {view : View}
  {place : Location}

theorem Begins.exists_combinedNameOf (h : Begins view source place)
    (hrules : ∀ set, rules = some set → IsFileName set.combinedName) :
    ∃ name, combinedNameOf rules source view = .ok name ∧ name ≠ ".." := by
  cases rules with
  | some set => exact ⟨_, rfl, (hrules set rfl).ne_up⟩
  | none =>
    rw [combinedNameOf, h.resolved]
    refine ⟨_, rfl, fun hup => ?_⟩
    have hlength := congrArg (fun text => text.toList.length) hup
    simp at hlength

theorem Begins.placed_beside (h : Begins view source place) (rules : Option RuleSet) :
    placed false rules source none view = .ok (outputBeside place, [outputBeside place], []) := by
  rw [placed, targetSeen.eq_def, h.besideOf_eq]
  rfl

theorem Begins.placed_in_beside (h : Begins view source place)
    (hname : combinedNameOf rules source view = .ok name) :
    placed true rules source none view = .ok ((outputBeside place).child name,
      [outputBeside place], [(outputBeside place).child name]) := by
  rw [placed, targetSeen.eq_def, h.besideOf_eq]
  simp only [bind, Except.bind, hname]
  rfl

section Trees

variable (htree : view.disk.IsTree) (h : Begins view source place)

include htree h

theorem Begins.locationOf_eq : view.disk.locationOf source = place :=
  (htree.eq_locationOf h.clean h.leads).symm

theorem Begins.isPathName_beside :
    ∀ name ∈ place.dropLast ++ [outputName], IsPathName name ∧ name ≠ ".." := by
  intro name hname
  rcases List.mem_append.1 hname with hname | hname
  · have hproper := htree.isFileName (h.tree.entryAt?_of_locate h.leads) name
      (List.mem_of_mem_dropLast hname)
    exact ⟨hproper.toIsPathName, hproper.ne_up⟩
  · rw [List.mem_singleton.1 hname]
    decide

theorem Begins.locationOf_outputBeside :
    view.disk.locationOf (outputBeside place) = place.dropLast ++ [outputName] :=
  htree.locationOf_root (h.isPathName_beside htree)

/-- The output beside a source that has another name is neither the source nor above it. -/
theorem Begins.not_outputBeside_prefix (hplace : place.getLast? ≠ some outputName) :
    ¬ view.disk.locationOf (outputBeside place) <+: view.disk.locationOf source := by
  rw [h.locationOf_eq htree, h.locationOf_outputBeside htree]
  rcases List.eq_nil_or_concat place with rfl | ⟨above, last, rfl⟩
  · simp
  · intro habove
    rw [List.concat_eq_append, List.dropLast_concat, List.prefix_append_right_inj] at habove
    rw [List.concat_eq_append, List.getLast?_concat] at hplace
    obtain ⟨rest, hrest⟩ := habove
    cases hrest
    exact hplace rfl

/-- What can be found is resolved, so a survey of a tree finds files, or none. -/
theorem Begins.exists_found_of_isTree
    (hnull : ∀ path ∈ directories ++ skipped, Disk.hasNull path = false) :
    ∃ result, found source suffixes directories skipped view = .ok result := by
  have hresolve : ∀ {path}, Disk.hasNull path = false →
      ∃ real, view.disk.resolve path = .ok real :=
    fun hpath => ⟨_, Disk.resolve_of_isPlain htree.toIsPlain hpath⟩
  exact h.exists_found_iff.2 ⟨fun path hpath => hresolve (hnull path hpath),
    fun files hfiles file hfile => hresolve (h.hasNull_of_scanned? hfiles hfile).1⟩

/-- A file in the directory beside the source need not be skipped besides that directory. -/
theorem Begins.sourcesOf_beside (hplace : place.getLast? ≠ some outputName)
    (hname : IsPathName name) (hup : name ≠ "..") :
    sourcesOf source suffixes [outputBeside place] [(outputBeside place).child name] view =
      sourcesOf source suffixes [outputBeside place] [] view := by
  have hskipped : view.disk.locationOf ((outputBeside place).child name) =
      view.disk.locationOf (outputBeside place) ++ [name] := by
    rw [h.locationOf_outputBeside htree]
    refine htree.locationOf_root fun other hother => ?_
    rcases List.mem_append.1 hother with hother | hother
    · exact h.isPathName_beside htree other hother
    · rw [List.mem_singleton.1 hother]
      exact ⟨hname, hup⟩
  refine List.filter_congr fun file hfile => ?_
  obtain ⟨names, hnames, -⟩ := (mem_sourcesBelow_iff htree).1 hfile
  have hstop : view.disk.locationOf (outputBeside place) ∈
      (omissionsOf [outputBeside place] view).directories :=
    List.mem_cons_self
  -- the scan has come to the file without entering the directory, so it is not that file
  have hne : file.path.names ≠ view.disk.locationOf (outputBeside place) ++ [name] := by
    rw [hnames.path]
    exact ne_append_of_admits hnames.admitted hstop (h.not_outputBeside_prefix htree hplace)
      (List.cons_ne_nil name [])
  simpa [hskipped] using hne

theorem Begins.found_in_beside_iff (hplace : place.getLast? ≠ some outputName)
    (hname : IsPathName name) (hup : name ≠ "..")
    (hnull : Disk.hasNull ((outputBeside place).child name) = false) :
    found source suffixes [outputBeside place] [(outputBeside place).child name] view =
        .ok (.ok files) ↔
      found source suffixes [outputBeside place] [] view = .ok (.ok files) := by
  rw [found_eq_ok_iff htree h.clean h.expanded, found_eq_ok_iff htree h.clean h.expanded,
    h.sourcesOf_beside htree hplace hname hup]
  simp [hnull]

/-- Both runs over a directory without a given output find the same files, or both none. -/
theorem Begins.surveyed_beside (hplace : place.getLast? ≠ some outputName)
    (hrules : ∀ set, rules = some set → IsFileName set.combinedName) :
    ∃ target result result',
      surveyed false rules source none view = .ok (outputBeside place, result) ∧
        surveyed true rules source none view = .ok (target, result') ∧
          ∀ files, result' = .ok files ↔ result = .ok files := by
  obtain ⟨name, hname, hup⟩ := h.exists_combinedNameOf hrules
  have hseparately := h.placed_beside rules
  have htogether := h.placed_in_beside hname
  obtain ⟨hnull, hnulls⟩ := h.hasNull_of_placed (by simp)
    (fun set hset => (hrules set hset).no_null) htogether
  have hclean : IsPathName name := by
    refine isClean_of_placed htree (by simp) (fun _ set hset => (hrules set hset).toIsPathName)
      htogether name ?_
    simp [Path.child]
  obtain ⟨result, hresult⟩ : ∃ result,
      found source (suffixesOf rules) [outputBeside place] [] view = .ok result :=
    h.exists_found_of_isTree htree fun path hpath => hnulls path
      (List.mem_append_left _ (by simpa using hpath))
  obtain ⟨result', hresult'⟩ : ∃ result', found source (suffixesOf rules) [outputBeside place]
      [(outputBeside place).child name] view = .ok result' :=
    h.exists_found_of_isTree htree hnulls
  refine ⟨_, result, result', surveyed_eq_ok_iff.2 ⟨_, _, _, h.expanded, hseparately, hresult⟩,
    surveyed_eq_ok_iff.2 ⟨_, _, _, h.expanded, htogether, hresult'⟩,
    fun files => ?_⟩
  -- the second survey skips a file that is below the directory that both stop at
  have hiff : found source (suffixesOf rules) _ _ view = .ok (.ok files) ↔ _ :=
    h.found_in_beside_iff htree hplace hclean hup hnull
  rw [hresult, hresult'] at hiff
  simpa using hiff

end Trees

end Run

end Minifier
