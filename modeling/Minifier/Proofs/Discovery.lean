import Mathlib.Data.List.Nodup
import Mathlib.Data.List.Perm.Subperm
import Minifier.Proofs.Disk.Links

/-!
# What a scan finds

A scan enters directory after directory. In the end it has found the files that names lead to
through directories none of which is left out (`Discovery.mem_filesBelow_iff`), each of them once
and in an order of its own (`Discovery.Precedes`, `Discovery.pairwise_filesBelow`): so what it finds
is known as soon as it is known which files are among it (`Discovery.eq_of_forall_mem_iff`). On a
tree these are the files that nothing on the way leaves out (`Discovery.finds_iff_of_isTree`).
-/

set_option autoImplicit false

namespace Minifier

namespace Discovery

variable {disk : Disk} {omissions : Omissions} {place : Location}
  {relative names path other rest : List String} {name : String} {entry : Entry} {depth : Nat}

/-! ## Directories -/

theorem mem_entriesBelow_iff :
    (name, entry) ∈ disk.entriesBelow place ↔ (place ++ [name], entry) ∈ disk.entries := by
  rw [Disk.entriesBelow, List.mem_filterMap]
  constructor
  · rintro ⟨⟨location, found⟩, hmem, h⟩
    rcases List.eq_nil_or_concat location with rfl | ⟨above, last, rfl⟩
    · cases h
    · rw [List.concat_eq_append] at hmem h
      simp only [List.getLast?_concat, List.dropLast_concat] at h
      split at h
      · next habove =>
        cases h
        rwa [← habove]
      · cases h
  · intro hmem
    exact ⟨(place ++ [name], entry), hmem, by simp⟩

theorem mem_sorted_iff {item : String × Entry} {entries : List (String × Entry)} :
    item ∈ sorted entries ↔ item ∈ entries :=
  List.mem_mergeSort

/-- The names in a directory differ. -/
theorem pairwise_ne_entriesBelow (hnodup : (disk.entries.map Prod.fst).Nodup) (place : Location) :
    (disk.entriesBelow place).Pairwise fun a b => a.1 ≠ b.1 := by
  have hkeys := List.pairwise_map.1 (List.nodup_iff_pairwise_ne.1 hnodup)
  rw [Disk.entriesBelow, List.pairwise_filterMap]
  refine hkeys.imp fun {a b} hne c hc d hd hcd => hne ?_
  -- what an entry counts as below the place does not depend on the others
  have hkey : ∀ item found, found ∈ ({ disk with entries := [item] } : Disk).entriesBelow place →
      item.1 = place ++ [found.1] := fun item found h =>
    (congrArg Prod.fst (List.mem_singleton.1 (mem_entriesBelow_iff.1 h))).symm
  rw [hkey a c (List.mem_filterMap.2 ⟨a, List.mem_singleton_self a, hc⟩),
    hkey b d (List.mem_filterMap.2 ⟨b, List.mem_singleton_self b, hd⟩), hcd]

/-- The entries of a directory stand in the order of their names. -/
theorem pairwise_sorted (hnodup : (disk.entries.map Prod.fst).Nodup) (place : Location) :
    (sorted (disk.entriesBelow place)).Pairwise fun a b => a.1 < b.1 := by
  have hle : (sorted (disk.entriesBelow place)).Pairwise fun a b => a.1 ≤ b.1 := by
    refine (List.pairwise_mergeSort (fun a b c hab hbc => ?_) (fun a b => ?_) _).imp
      fun {a b} hab => ?_
    · simp only [Bool.not_eq_true', decide_eq_false_iff_not, String.not_lt] at hab hbc ⊢
      exact String.le_trans hab hbc
    · simp only [Bool.or_eq_true, Bool.not_eq_true', decide_eq_false_iff_not, String.not_lt]
      exact String.le_total a.1 b.1
    · simpa only [Bool.not_eq_true', decide_eq_false_iff_not, String.not_lt] using hab
  have hne : (sorted (disk.entriesBelow place)).Pairwise fun a b => a.1 ≠ b.1 :=
    (List.mergeSort_perm _ _).symm.pairwise (pairwise_ne_entriesBelow hnodup place)
      fun {a b} hab => Ne.symm hab
  refine (hle.and hne).imp fun {a b} hab => ?_
  by_contra hnot
  exact hab.2 (String.le_antisymm hab.1 (String.not_lt.1 hnot))

/-! ## Files -/

/-- Names lead from a place, which itself has a relative path, down to a file that is not left out,
through directories none of which is left out either. -/
inductive Omissions.Finds (omissions : Omissions) (disk : Disk) :
    Location → List String → List String → Prop where
  | file {place : Location} {relative : List String} {name : String} {entry : Entry} :
      (place ++ [name], entry) ∈ disk.entries →
        leadsToDirectory disk (place ++ [name]) entry = false →
          omissions.hasFile (relative ++ [name]) = false →
            Finds omissions disk place relative [name]
  | directory {place : Location} {relative rest : List String} {name : String} :
      (place ++ [name], .directory) ∈ disk.entries →
        omissions.hasDirectory (place ++ [name]) (relative ++ [name]) = false →
          Finds omissions disk (place ++ [name]) (relative ++ [name]) rest →
            Finds omissions disk place relative (name :: rest)

theorem Omissions.Finds.ne_nil (h : omissions.Finds disk place relative names) : names ≠ [] := by
  cases h with
  | file => simp
  | directory => simp

/-- The relative paths of the files in a directory that are not left out. -/
def filesHere (disk : Disk) (omissions : Omissions) (place : Location) (relative : List String) :
    List (List String) :=
  (sorted (disk.entriesBelow place)).filterMap fun (name, entry) =>
    if leadsToDirectory disk (place ++ [name]) entry || omissions.hasFile (relative ++ [name]) then
      none
    else some (relative ++ [name])

/-- The names of the directories in a directory that are not left out. -/
def directoriesHere (disk : Disk) (omissions : Omissions) (place : Location)
    (relative : List String) : List String :=
  (sorted (disk.entriesBelow place)).filterMap fun (name, entry) =>
    if entry.isDirectory && !omissions.hasDirectory (place ++ [name]) (relative ++ [name]) then
      some name
    else none

theorem filesBelow_succ (disk : Disk) (omissions : Omissions) (depth : Nat) (place : Location)
    (relative : List String) :
    filesBelow disk omissions (depth + 1) place relative =
      filesHere disk omissions place relative ++
        (directoriesHere disk omissions place relative).flatMap fun name =>
          filesBelow disk omissions depth (place ++ [name]) (relative ++ [name]) :=
  rfl

theorem mem_filesHere_iff :
    path ∈ filesHere disk omissions place relative ↔
      ∃ name entry, path = relative ++ [name] ∧ (place ++ [name], entry) ∈ disk.entries ∧
        leadsToDirectory disk (place ++ [name]) entry = false ∧
          omissions.hasFile (relative ++ [name]) = false := by
  rw [filesHere, List.mem_filterMap]
  constructor
  · rintro ⟨⟨name, entry⟩, hmem, h⟩
    dsimp only at h
    split at h
    · cases h
    · next hkept =>
      rw [Bool.or_eq_true, not_or, Bool.not_eq_true, Bool.not_eq_true] at hkept
      exact ⟨name, entry, (Option.some.inj h).symm,
        mem_entriesBelow_iff.1 (mem_sorted_iff.1 hmem), hkept.1, hkept.2⟩
  · rintro ⟨name, entry, rfl, hmem, hdirectory, hfile⟩
    exact ⟨(name, entry), mem_sorted_iff.2 (mem_entriesBelow_iff.2 hmem),
      by simp only [hdirectory, hfile, Bool.or_self, Bool.false_eq_true, if_false]⟩

theorem mem_directoriesHere_iff :
    name ∈ directoriesHere disk omissions place relative ↔
      (place ++ [name], .directory) ∈ disk.entries ∧
        omissions.hasDirectory (place ++ [name]) (relative ++ [name]) = false := by
  rw [directoriesHere, List.mem_filterMap]
  constructor
  · rintro ⟨⟨found, entry⟩, hmem, h⟩
    dsimp only at h
    split at h
    · next hkept =>
      cases h
      rw [Bool.and_eq_true, Bool.not_eq_true'] at hkept
      have hentry := mem_entriesBelow_iff.1 (mem_sorted_iff.1 hmem)
      cases entry with
      | directory => exact ⟨hentry, hkept.2⟩
      | file content => exact absurd hkept.1 Bool.false_ne_true
      | link target => exact absurd hkept.1 Bool.false_ne_true
    · cases h
  · rintro ⟨hmem, hkept⟩
    exact ⟨(name, .directory), mem_sorted_iff.2 (mem_entriesBelow_iff.2 hmem),
      by simp [Entry.isDirectory, hkept]⟩

/-- A scan lists what names that are not too many lead to. -/
theorem mem_filesBelow_iff :
    path ∈ filesBelow disk omissions depth place relative ↔
      ∃ names, path = relative ++ names ∧ names.length ≤ depth ∧
        omissions.Finds disk place relative names := by
  induction depth generalizing place relative with
  | zero =>
    constructor
    · intro h
      cases h
    · rintro ⟨names, -, hlength, hfinds⟩
      exact absurd (List.length_eq_zero_iff.1 (Nat.le_zero.1 hlength)) hfinds.ne_nil
  | succ depth ih =>
    rw [filesBelow_succ, List.mem_append, mem_filesHere_iff, List.mem_flatMap]
    constructor
    · -- a file stands in the directory itself, or below one of its directories
      rintro (⟨name, entry, rfl, hmem, hdirectory, hfile⟩ | ⟨name, hname, hpath⟩)
      · exact ⟨[name], rfl, by simp, .file hmem hdirectory hfile⟩
      · obtain ⟨hmem, hkept⟩ := mem_directoriesHere_iff.1 hname
        obtain ⟨rest, rfl, hlength, hfinds⟩ := ih.1 hpath
        refine ⟨name :: rest, ?_, Nat.succ_le_succ hlength, .directory hmem hkept hfinds⟩
        rw [List.append_assoc, List.singleton_append]
    · rintro ⟨names, rfl, hlength, hfinds⟩
      cases hfinds with
      | file hmem hdirectory hfile => exact Or.inl ⟨_, _, rfl, hmem, hdirectory, hfile⟩
      | @directory _ _ rest name hmem hkept hfinds =>
        refine Or.inr ⟨name, mem_directoriesHere_iff.2 ⟨hmem, hkept⟩,
          ih.2 ⟨rest, ?_, Nat.le_of_succ_le_succ hlength, hfinds⟩⟩
        rw [List.append_assoc, List.singleton_append]

/-- On the way to a file there is an entry for each name. -/
theorem Omissions.Finds.exists_entry (h : omissions.Finds disk place relative names)
    {above below : List String} (hsplit : names = above ++ below) (habove : above ≠ []) :
    place ++ above ∈ disk.entries.map Prod.fst := by
  induction h generalizing above with
  | file hmem _ _ =>
    rcases List.singleton_eq_append_iff.1 hsplit with ⟨hnil, -⟩ | ⟨hone, -⟩
    · exact absurd hnil habove
    · exact hone ▸ List.mem_map_of_mem hmem
  | @directory place _ _ name hmem _ _ ih =>
    rcases List.cons_eq_append_iff.1 hsplit with ⟨hnil, -⟩ | ⟨above', rfl, hrest⟩
    · exact absurd hnil habove
    · by_cases hnil : above' = []
      · exact hnil ▸ List.mem_map_of_mem hmem
      · have hmem' := ih hrest hnil
        rwa [List.append_assoc, List.singleton_append] at hmem'

/-- So the way to a file is no longer than the list of entries. -/
theorem Omissions.Finds.length_le (h : omissions.Finds disk place relative names) :
    names.length ≤ disk.entries.length := by
  have hnodup : ((List.range names.length).map fun n => place ++ names.take (n + 1)).Nodup := by
    refine List.Nodup.map_on (fun m hm n hn hmn => ?_) List.nodup_range
    have hlength := congrArg List.length (List.append_cancel_left hmn)
    rw [List.mem_range] at hm hn
    rw [List.length_take, List.length_take] at hlength
    omega
  have hsubset : ((List.range names.length).map fun n => place ++ names.take (n + 1)) ⊆
      disk.entries.map Prod.fst := by
    intro key hkey
    obtain ⟨n, hn, rfl⟩ := List.mem_map.1 hkey
    rw [List.mem_range] at hn
    refine h.exists_entry (List.take_append_drop (n + 1) names).symm fun hnil => ?_
    have hlength := congrArg List.length hnil
    rw [List.length_take, List.length_nil] at hlength
    omega
  have hle := (hnodup.subperm hsubset).length_le
  rwa [List.length_map, List.length_range, List.length_map] at hle

/-- A scan from the top goes deep enough to find all. -/
theorem mem_filesBelow_all_iff :
    path ∈ filesBelow disk omissions (disk.entries.length + 1) place relative ↔
      ∃ names, path = relative ++ names ∧ omissions.Finds disk place relative names := by
  rw [mem_filesBelow_iff]
  refine exists_congr fun names => and_congr_right fun _ => and_iff_right_of_imp fun hfinds => ?_
  exact Nat.le_succ_of_le hfinds.length_le

/-! ## Order -/

/-- The order of a scan: at the first names that differ, a file stands before a directory, and
otherwise the lesser name first. -/
inductive Precedes : List String → List String → Prop where
  | files {a b : String} : a < b → Precedes [a] [b]
  | file (a b c : String) (rest : List String) : Precedes [a] (b :: c :: rest)
  | directories {a b : String} (c d : String) (rest rest' : List String) : a < b →
      Precedes (a :: c :: rest) (b :: d :: rest')
  | inside {rest rest' : List String} (a : String) : Precedes rest rest' →
      Precedes (a :: rest) (a :: rest')

theorem Precedes.asymm (h : Precedes path other) : ¬ Precedes other path := by
  induction h with
  | files hab =>
    intro h
    cases h with
    | files hba => exact String.lt_asymm hab hba
    | inside _ h => cases h
  | file a b c rest =>
    intro h
    cases h with
    | inside _ h => cases h
  | directories c d rest rest' hab =>
    intro h
    cases h with
    | directories _ _ _ _ hba => exact String.lt_asymm hab hba
    | inside _ _ => exact String.lt_irrefl _ hab
  | inside a h ih =>
    intro h'
    cases h' with
    | files haa => exact String.lt_irrefl _ haa
    | file => cases h
    | directories _ _ _ _ haa => exact String.lt_irrefl _ haa
    | inside _ h' => exact ih h'

theorem Precedes.ne (h : Precedes path other) : path ≠ other := by
  rintro rfl
  exact h.asymm h

theorem Precedes.append_left (relative : List String) (h : Precedes path other) :
    Precedes (relative ++ path) (relative ++ other) := by
  induction relative with
  | nil => exact h
  | cons name relative ih => exact .inside name ih

theorem pairwise_filesHere (hnodup : (disk.entries.map Prod.fst).Nodup) (omissions : Omissions)
    (place : Location) (relative : List String) :
    (filesHere disk omissions place relative).Pairwise Precedes := by
  rw [filesHere, List.pairwise_filterMap]
  refine (pairwise_sorted hnodup place).imp fun {a b} hab path hpath other hother => ?_
  dsimp only at hpath hother
  split at hpath
  · cases hpath
  split at hother
  · cases hother
  cases hpath
  cases hother
  exact (Precedes.files hab).append_left relative

theorem pairwise_directoriesHere (hnodup : (disk.entries.map Prod.fst).Nodup)
    (omissions : Omissions) (place : Location) (relative : List String) :
    (directoriesHere disk omissions place relative).Pairwise (· < ·) := by
  rw [directoriesHere, List.pairwise_filterMap]
  refine (pairwise_sorted hnodup place).imp fun {a b} hab name hname other hother => ?_
  dsimp only at hname hother
  split at hname
  · split at hother
    · cases hname
      cases hother
      exact hab
    · cases hother
  · cases hname

/-- A scan lists the files in its order. -/
theorem pairwise_filesBelow (hnodup : (disk.entries.map Prod.fst).Nodup) (omissions : Omissions)
    (depth : Nat) (place : Location) (relative : List String) :
    (filesBelow disk omissions depth place relative).Pairwise Precedes := by
  induction depth generalizing place relative with
  | zero => exact List.Pairwise.nil
  | succ depth ih =>
    rw [filesBelow_succ, List.pairwise_append]
    refine ⟨pairwise_filesHere hnodup omissions place relative, ?_, ?_⟩
    · rw [List.pairwise_flatMap]
      refine ⟨fun name _ => ih _ _, ?_⟩
      refine (pairwise_directoriesHere hnodup omissions place relative).imp fun hab => ?_
      intro path hpath other hother
      obtain ⟨names, rfl, -, hfinds⟩ := mem_filesBelow_iff.1 hpath
      obtain ⟨names', rfl, -, hfinds'⟩ := mem_filesBelow_iff.1 hother
      obtain ⟨c, rest, rfl⟩ := List.exists_cons_of_ne_nil hfinds.ne_nil
      obtain ⟨d, rest', rfl⟩ := List.exists_cons_of_ne_nil hfinds'.ne_nil
      simp only [List.append_assoc, List.singleton_append]
      exact (Precedes.directories c d rest rest' hab).append_left relative
    · intro path hpath other hother
      obtain ⟨name, entry, rfl, -⟩ := mem_filesHere_iff.1 hpath
      obtain ⟨name', -, hother⟩ := List.mem_flatMap.1 hother
      obtain ⟨names, rfl, -, hfinds⟩ := mem_filesBelow_iff.1 hother
      obtain ⟨c, rest, rfl⟩ := List.exists_cons_of_ne_nil hfinds.ne_nil
      simp only [List.append_assoc, List.singleton_append]
      exact (Precedes.file name name' c rest).append_left relative

/-- A scan lists no file twice. -/
theorem nodup_of_pairwise_precedes {paths : List (List String)} (h : paths.Pairwise Precedes) :
    paths.Nodup :=
  List.nodup_iff_pairwise_ne.2 (h.imp Precedes.ne)

/-- Lists in the order of a scan are the same when they have the same members. -/
theorem eq_of_forall_mem_iff {paths paths' : List (List String)} (h : paths.Pairwise Precedes)
    (h' : paths'.Pairwise Precedes) (hmem : ∀ path, path ∈ paths ↔ path ∈ paths') :
    paths = paths' :=
  List.Perm.eq_of_pairwise (fun _ _ _ _ hab hba => absurd hba hab.asymm) h h'
    ((List.perm_ext_iff_of_nodup (nodup_of_pairwise_precedes h)
      (nodup_of_pairwise_precedes h')).2 hmem)

/-! ## Trees -/

/-- Nothing leaves out the file that names lead to from a place, or a directory on the way. -/
structure Omissions.Admits (omissions : Omissions) (place : Location)
    (relative names : List String) : Prop where
  ne_nil : names ≠ []
  file : omissions.hasFile (relative ++ names) = false
  directory : ∀ above below, names = above ++ below → above ≠ [] → below ≠ [] →
    omissions.hasDirectory (place ++ above) (relative ++ above) = false

/-- What a scan finds is an entry that is no directory and that nothing leaves out. -/
theorem Omissions.Finds.admits (h : omissions.Finds disk place relative names) :
    omissions.Admits place relative names ∧ ∃ entry, (place ++ names, entry) ∈ disk.entries ∧
      leadsToDirectory disk (place ++ names) entry = false := by
  induction h with
  | @file place relative name entry hmem hdirectory hfile =>
    refine ⟨⟨by simp, hfile, fun above below hsplit habove hbelow => ?_⟩, entry, hmem, hdirectory⟩
    rcases List.singleton_eq_append_iff.1 hsplit with ⟨hnil, -⟩ | ⟨-, hnil⟩
    · exact absurd hnil habove
    · exact absurd hnil hbelow
  | @directory place relative rest name hmem hkept hfinds ih =>
    obtain ⟨hadmits, hentry⟩ := ih
    refine ⟨⟨by simp, ?_, fun above below hsplit habove hbelow => ?_⟩, ?_⟩
    · have hfile := hadmits.file
      rwa [List.append_assoc, List.singleton_append] at hfile
    · rcases List.cons_eq_append_iff.1 hsplit with ⟨hnil, -⟩ | ⟨above', rfl, hrest⟩
      · exact absurd hnil habove
      · by_cases hnil : above' = []
        · rwa [hnil]
        · have hdirectory := hadmits.directory above' below hrest hnil hbelow
          rwa [List.append_assoc, List.append_assoc, List.singleton_append] at hdirectory
    · rwa [List.append_assoc, List.singleton_append] at hentry

/-- In a tree, links included, a scan finds every entry that is no directory and that nothing
leaves out. -/
theorem finds_iff (htree : disk.IsLinkedTree) :
    omissions.Finds disk place relative names ↔
      omissions.Admits place relative names ∧ ∃ entry,
        disk.entryAt? (place ++ names) = some entry ∧
          leadsToDirectory disk (place ++ names) entry = false := by
  constructor
  · intro h
    obtain ⟨hadmits, entry, hmem, hdirectory⟩ := h.admits
    have hplace : place ++ names ≠ [] := by simp [hadmits.ne_nil]
    exact ⟨hadmits, entry, Disk.entryAt?_of_mem_entries htree.nodup hplace hmem, hdirectory⟩
  rintro ⟨hadmits, entry, hentry, hleads⟩
  have hne := hadmits.ne_nil
  induction names generalizing place relative with
  | nil => exact absurd rfl hne
  | cons name rest ih =>
    -- the last name is that of a file, all before it are those of directories
    by_cases hrest : rest = []
    · subst hrest
      exact .file (Disk.mem_entries_of_entryAt? (by simp) hentry) hleads hadmits.file
    · have hdirectory := hadmits.directory [name] rest rfl (by simp) hrest
      rw [← List.singleton_append, ← List.append_assoc] at hentry hleads
      have habove := htree.directory_of_append hrest hentry
      refine .directory (Disk.mem_entries_of_entryAt? (by simp) habove) hdirectory
        (ih ⟨hrest, ?_, fun above below hsplit habove hbelow => ?_⟩ hentry hleads hrest)
      · rw [List.append_assoc, List.singleton_append]
        exact hadmits.file
      · rw [List.append_assoc, List.append_assoc, List.singleton_append]
        exact hadmits.directory (name :: above) below (by rw [hsplit, List.cons_append]) (by simp)
          hbelow

/-- In a tree a file is found when nothing leaves it out. -/
theorem finds_iff_of_isTree (htree : disk.IsTree) :
    omissions.Finds disk place relative names ↔
      omissions.Admits place relative names ∧
        ∃ content, disk.contentAt? (place ++ names) = some content := by
  rw [finds_iff htree.isLinkedTree]
  refine and_congr_right fun _ => ?_
  constructor
  · rintro ⟨entry, hentry, hleads⟩
    cases entry with
    | directory => exact absurd hleads.symm Bool.false_ne_true
    | link target => exact absurd hentry (htree.ne_link _ _)
    | file content => exact ⟨content, Disk.contentAt?_eq_some_iff.2 hentry⟩
  · rintro ⟨content, hcontent⟩
    exact ⟨.file content, Disk.contentAt?_eq_some_iff.1 hcontent, rfl⟩

/-! ## Supported files -/

theorem sourceFile?_eq_some_iff {base : Path} {wanted : List String} {file : SourceFile} :
    sourceFile? base wanted names = some file ↔
      file.path = ⟨base.anchor, base.names ++ names⟩ ∧ file.relative = relativeText names ∧
        Kind.ofPath? file.path = some file.kind ∧
          wanted.contains (lowerCase file.path.suffix) = true := by
  obtain ⟨path, relative, kind⟩ := file
  rw [sourceFile?]
  constructor
  · intro h
    split at h
    · next hwanted =>
      obtain ⟨found, hkind, hfile⟩ := Option.map_eq_some_iff.1 h
      cases hfile
      exact ⟨rfl, rfl, hkind, hwanted⟩
    · cases h
  · rintro ⟨rfl, rfl, hkind, hwanted⟩
    rw [if_pos hwanted, hkind]
    rfl

/-- The directory that a scan starts at is what the root stands for, if that is a directory. -/
theorem baseOf_eq_ok_iff {root : String} {base : Path} :
    baseOf disk root = .ok base ↔
      ∃ path, disk.expandHome (.ofString root) = .ok path ∧ disk.resolve path = .ok base ∧
        disk.isDirectory? base = .ok true := by
  constructor
  · intro h
    obtain ⟨path, hexpand, h⟩ := bind_eq_ok_iff.1 h
    obtain ⟨real, hresolve, h⟩ := bind_eq_ok_iff.1 h
    obtain ⟨there, -, h⟩ := bind_eq_ok_iff.1 h
    cases there with
    | false => cases h
    | true =>
      obtain ⟨isDirectory, hdirectory, h⟩ := bind_eq_ok_iff.1 h
      cases isDirectory with
      | false => cases h
      | true =>
        cases h
        exact ⟨path, mapError_eq_ok_iff.1 hexpand, mapError_eq_ok_iff.1 hresolve,
          mapError_eq_ok_iff.1 hdirectory⟩
  · rintro ⟨path, hexpand, hresolve, hdirectory⟩
    have hexists := Disk.exists?_of_isDirectory? hdirectory
    refine bind_eq_ok_iff.2 ⟨path, mapError_eq_ok_iff.2 hexpand,
      bind_eq_ok_iff.2 ⟨base, mapError_eq_ok_iff.2 hresolve, ?_⟩⟩
    simp only [hexists, hdirectory]
    rfl

theorem placeOf_eq {base : Path} (h : disk.locate true base = .ok (.taken place entry)) :
    placeOf disk base = place := by
  rw [placeOf, h]

/-- On a disk without links a base is its place. -/
theorem placeOf_of_isPlain (hplain : disk.IsPlain)
    (hbase : disk.isDirectory? ⟨.root, place⟩ = .ok true) (hup : ∀ name ∈ place, name ≠ "..") :
    placeOf disk ⟨.root, place⟩ = place := by
  obtain ⟨place', hlocate⟩ := Disk.isDirectory?_eq_true_iff.1 hbase
  have hplace : place' = Disk.walk [] place := Disk.place_of_locate hplain hlocate
  rw [placeOf_eq hlocate, hplace, Disk.walk_of_forall_ne hup, List.nil_append]

/-- A scan gives the supported files below its base, less what it leaves out. -/
theorem value_sourceFiles (disk : Disk) (exclusions : List Exclusion) (root : String)
    (suffixes : List String) (skipped : List Path) :
    (sourceFiles disk exclusions root suffixes skipped).run.value = (do
      let base ← baseOf disk root
      let directories ← skipped.mapM fun path =>
        (disk.resolve path).mapError DiscoveryError.path
      return (filesBelow disk ⟨exclusions, placesOf directories⟩ (disk.entries.length + 1)
        (placeOf disk base) []).filterMap (sourceFile? base (suffixes.map lowerCase))) := by
  rw [sourceFiles]
  cases baseOf disk root with
  | error error => rfl
  | ok base =>
    cases skipped.mapM fun path => (disk.resolve path).mapError DiscoveryError.path with
    | error error => rfl
    | ok directories => rfl

end Discovery

end Minifier
