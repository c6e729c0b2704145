import Minifier.Proofs.Discovery
import Minifier.Proofs.Disk.Order

/-!
# What a scan lists

A scan of a tree, links included, lists exactly the wanted files that are reached through entered
directories, each of them once and in the order of `Discovery.Precedes`
(`Discovery.sourceFiles_lists_exactly`). It does so in whatever order the disk lists its entries.
-/

set_option autoImplicit false

namespace Minifier

namespace Discovery

variable {disk other : Disk} {omissions : Omissions} {place : Location}
  {relative names : List String}
  {excludes suffixes : List String} {skipped : List Path} {base source : Path} {entry : Entry}

/-! ## Entries that are no directories -/

theorem leadsToDirectory_eq_false_iff (htree : disk.IsLinkedTree)
    (hentry : disk.entryAt? place = some entry) :
    leadsToDirectory disk place entry = false ↔ disk.isDirectory? ⟨.root, place⟩ ≠ .ok true := by
  cases entry with
  | directory =>
    have hdirectory : disk.isDirectory? ⟨.root, place⟩ = .ok true :=
      Disk.isDirectory?_eq_true_iff.2
        ⟨place, htree.locate_place hentry (.inr fun target => by simp)⟩
    simp [leadsToDirectory, hdirectory]
  | file content =>
    have hlocate : disk.locate true ⟨.root, place⟩ = .ok (.taken place (.file content)) :=
      htree.locate_place hentry (.inr fun target => by simp)
    simp [leadsToDirectory, Disk.isDirectory?_eq_true_iff, hlocate]
  | link target =>
    rw [leadsToDirectory]
    cases disk.isDirectory? ⟨.root, place⟩ with
    | ok answer => simp
    | error error => simp

/-! ## What is listed -/

/-- A scan with given exclusions and skipped directories enters the directory at a relative path
below a base. -/
structure IsEntered (disk : Disk) (excludes : List String) (skipped : List Path) (base : Path)
    (names : List String) : Prop where
  unreserved : ∀ name ∈ names.getLast?, name ∉ alwaysSkipped
  unskipped : ∀ path ∈ skipped, disk.resolve path ≠ disk.resolve ⟨base.anchor, base.names ++ names⟩
  kept : ∀ raw ∈ excludes, ∀ exclusion ∈ Exclusion.parse? raw,
    exclusion.excludes (relativeText names) true = false

/-- A scan lists the entry at a relative path below a base, which leads to a place: it is there and
no directory, its suffix is both requested and supported, nothing excludes it, and every directory
on the way is entered. -/
structure IsListed (disk : Disk) (excludes suffixes : List String) (skipped : List Path)
    (base : Path) (place : Location) (names : List String) : Prop where
  ne_nil : names ≠ []
  there : ∃ entry, disk.entryAt? (place ++ names) = some entry
  no_directory : disk.isDirectory? ⟨.root, place ++ names⟩ ≠ .ok true
  requested : lowerCase (Path.suffix ⟨base.anchor, base.names ++ names⟩) ∈ suffixes.map lowerCase
  supported : lowerCase (Path.suffix ⟨base.anchor, base.names ++ names⟩) ∈ Kind.suffixes
  kept : ∀ raw ∈ excludes, ∀ exclusion ∈ Exclusion.parse? raw,
    exclusion.excludes (relativeText names) false = false
  entered : ∀ above below, names = above ++ below → above ≠ [] → below ≠ [] →
    IsEntered disk excludes skipped base above

theorem exists_ofPath?_iff {path : Path} :
    (∃ kind, Kind.ofPath? path = some kind) ↔ lowerCase path.suffix ∈ Kind.suffixes := by
  have hall : Kind.suffixes = Kind.all.map Kind.suffix := by decide
  rw [Kind.ofPath?, Kind.ofSuffix?, ← Option.isSome_iff_exists, List.find?_isSome, hall,
    List.mem_map]
  simp

/-- Exclusions keep what each of their texts keeps. -/
theorem any_excludes_eq_false_iff {isDirectory : Bool} :
    (Exclusion.parseAll excludes).any (fun exclusion =>
        exclusion.excludes (relativeText names) isDirectory) = false ↔
      ∀ raw ∈ excludes, ∀ exclusion ∈ Exclusion.parse? raw,
        exclusion.excludes (relativeText names) isDirectory = false := by
  simp only [List.any_eq_false, Exclusion.parseAll, List.mem_filterMap, Bool.not_eq_true]
  constructor
  · exact fun h raw hraw exclusion hparse => h exclusion ⟨raw, hraw, hparse⟩
  · rintro h exclusion ⟨raw, hraw, hparse⟩
    exact h raw hraw exclusion hparse

theorem mem_placesOf_iff {paths : List Path} {place : Location} :
    place ∈ placesOf paths ↔ ⟨.root, place⟩ ∈ paths := by
  rw [placesOf, List.mem_map]
  constructor
  · rintro ⟨⟨anchor, names⟩, hmem, rfl⟩
    rw [List.mem_filter, beq_iff_eq] at hmem
    obtain ⟨hmem, rfl⟩ := hmem
    exact hmem
  · exact fun hmem => ⟨_, List.mem_filter.2 ⟨hmem, rfl⟩, rfl⟩

/-- A directory below a base stands for its place. -/
theorem resolve_below (htree : disk.IsLinkedTree) (hclean : base.IsClean)
    (hbase : disk.locate true base = .ok (.taken place .directory)) (hnames : names ≠ [])
    (hentry : disk.entryAt? (place ++ names) = some .directory) :
    disk.resolve ⟨base.anchor, base.names ++ names⟩ = .ok ⟨.root, place ++ names⟩ := by
  obtain ⟨hnull, hleads⟩ := Disk.locate_eq_ok_iff.1 hbase
  have hproper : ∀ name ∈ names, IsFileName name := fun name hname =>
    htree.isFileName hentry name (List.mem_append_right _ hname)
  refine htree.resolve_of_locate (fun name hname => ?_) (Disk.locate_eq_ok_iff.2
    ⟨Disk.hasNull_eq_false fun name hname => ?_, hleads.append
      (htree.leads_down 0 hentry (.inr fun target => by simp) fun _ => rfl) hnames⟩)
  · exact (List.mem_append.1 hname).elim (hclean name) fun h => (hproper name h).toIsPathName
  · exact (List.mem_append.1 hname).elim (Disk.not_mem_of_hasNull hnull)
      fun h => (hproper name h).no_null

/-- A directory is left out when it is not entered. -/
theorem hasDirectory_eq_false_iff {reals : List Path}
    (hreals : ∀ real, real ∈ reals ↔ ∃ path ∈ skipped, disk.resolve path = .ok real)
    (hresolve : disk.resolve ⟨base.anchor, base.names ++ names⟩ = .ok ⟨.root, place ++ names⟩)
    (hnames : names ≠ []) :
    Omissions.hasDirectory ⟨Exclusion.parseAll excludes, placesOf reals⟩ (place ++ names) names =
        false ↔ IsEntered disk excludes skipped base names := by
  have hreserved : (place ++ names).getLast?.any alwaysSkipped.contains = false ↔
      ∀ name ∈ names.getLast?, name ∉ alwaysSkipped := by
    rw [List.getLast?_append_of_ne_nil _ hnames]
    cases names.getLast? <;> simp
  have hskipped : (placesOf reals).contains (place ++ names) = false ↔
      ∀ path ∈ skipped, disk.resolve path ≠ disk.resolve ⟨base.anchor, base.names ++ names⟩ := by
    rw [hresolve, List.contains_eq_mem, decide_eq_false_iff_not, mem_placesOf_iff, hreals]
    simp
  rw [Omissions.hasDirectory, Bool.or_eq_false_iff, Bool.or_eq_false_iff, hreserved, hskipped,
    any_excludes_eq_false_iff]
  exact ⟨fun ⟨⟨hreserved, hskipped⟩, hkept⟩ => ⟨hreserved, hskipped, hkept⟩,
    fun h => ⟨⟨h.unreserved, h.unskipped⟩, h.kept⟩⟩

/-- The listed entries are the supported files that a scan finds. -/
theorem isListed_iff (htree : disk.IsLinkedTree) (hclean : base.IsClean)
    (hplace : disk.locate true base = .ok (.taken place .directory)) {reals : List Path}
    (hreals : ∀ real, real ∈ reals ↔ ∃ path ∈ skipped, disk.resolve path = .ok real) :
    IsListed disk excludes suffixes skipped base place names ↔
      Omissions.Finds ⟨Exclusion.parseAll excludes, placesOf reals⟩ disk place [] names ∧
        ∃ file, sourceFile? base (suffixes.map lowerCase) names = some file := by
  have hsource : (∃ file, sourceFile? base (suffixes.map lowerCase) names = some file) ↔
      lowerCase (Path.suffix ⟨base.anchor, base.names ++ names⟩) ∈ suffixes.map lowerCase ∧
        lowerCase (Path.suffix ⟨base.anchor, base.names ++ names⟩) ∈ Kind.suffixes := by
    rw [← exists_ofPath?_iff, ← List.contains_iff_mem]
    constructor
    · rintro ⟨file, hfile⟩
      obtain ⟨hpath, -, hkind, hwanted⟩ := sourceFile?_eq_some_iff.1 hfile
      rw [hpath] at hkind hwanted
      exact ⟨hwanted, file.kind, hkind⟩
    · rintro ⟨hwanted, kind, hkind⟩
      exact ⟨⟨_, _, kind⟩, sourceFile?_eq_some_iff.2 ⟨rfl, rfl, hkind, hwanted⟩⟩
  -- a directory on the way to an entry is entered if it is not left out
  have hentered : ∀ {entry above below}, disk.entryAt? (place ++ names) = some entry →
      names = above ++ below → above ≠ [] → below ≠ [] →
        (Omissions.hasDirectory ⟨Exclusion.parseAll excludes, placesOf reals⟩ (place ++ above)
          above = false ↔ IsEntered disk excludes skipped base above) := by
    intro entry above below hentry hsplit habove hbelow
    rw [hsplit, ← List.append_assoc] at hentry
    exact hasDirectory_eq_false_iff hreals (resolve_below htree hclean hplace habove
      (htree.directory_of_append hbelow hentry)) habove
  rw [finds_iff htree, hsource]
  constructor
  · intro h
    obtain ⟨entry, hentry⟩ := h.there
    refine ⟨⟨⟨h.ne_nil, any_excludes_eq_false_iff.2 h.kept, fun above below hsplit habove hbelow =>
      (hentered hentry hsplit habove hbelow).2 (h.entered above below hsplit habove hbelow)⟩,
      entry, hentry, (leadsToDirectory_eq_false_iff htree hentry).2 h.no_directory⟩,
      h.requested, h.supported⟩
  · rintro ⟨⟨hadmits, entry, hentry, hdirectory⟩, hrequested, hsupported⟩
    exact ⟨hadmits.ne_nil, ⟨entry, hentry⟩,
      (leadsToDirectory_eq_false_iff htree hentry).1 hdirectory, hrequested, hsupported,
      any_excludes_eq_false_iff.1 hadmits.file, fun above below hsplit habove hbelow =>
        (hentered hentry hsplit habove hbelow).1
          (hadmits.directory above below hsplit habove hbelow)⟩

/-! ## The order of entries -/

theorem finds_of_reordered (h : disk.Reordered other)
    (hfinds : omissions.Finds disk place relative names) :
    omissions.Finds other place relative names := by
  induction hfinds with
  | @file place relative name entry hmem hdirectory hfile =>
    refine .file (h.entries.symm.subset hmem) ?_ hfile
    rw [← hdirectory]
    cases entry <;> simp only [leadsToDirectory, h.isDirectory?]
  | directory hmem hkept _ ih => exact .directory (h.entries.symm.subset hmem) hkept ih

/-- A scan finds the same files whatever the order of the entries. -/
theorem filesBelow_of_reordered (h : disk.Reordered other) (omissions : Omissions)
    (place : Location) :
    filesBelow other omissions (other.entries.length + 1) place [] =
      filesBelow disk omissions (disk.entries.length + 1) place [] := by
  refine eq_of_forall_mem_iff (pairwise_filesBelow h.nodup_other _ _ _ _)
    (pairwise_filesBelow h.nodup _ _ _ _) fun names => ?_
  rw [mem_filesBelow_all_iff, mem_filesBelow_all_iff]
  exact exists_congr fun names =>
    and_congr_right fun _ => ⟨finds_of_reordered h.symm, finds_of_reordered h⟩

theorem value_sourceFiles_of_reordered (h : disk.Reordered other) (exclusions : List Exclusion)
    (root : String) (suffixes : List String) (skipped : List Path) :
    (sourceFiles other exclusions root suffixes skipped).run.value =
      (sourceFiles disk exclusions root suffixes skipped).run.value := by
  have hbase : baseOf other root = baseOf disk root := by
    simp only [baseOf, h.expandHome, h.resolve, h.exists?, h.isDirectory?]
  have hplace : ∀ base, placeOf other base = placeOf disk base := by
    intro base
    rw [placeOf, placeOf, h.locate]
  simp only [value_sourceFiles, hbase, hplace, h.resolve, filesBelow_of_reordered h]

/-! ## Scans -/

/-- A scan gives the supported files that it finds from the place of its base. -/
theorem exists_value_sourceFiles (exclusions : List Exclusion) {root : String}
    (suffixes : List String) (hsource : disk.expandHome (.ofString root) = .ok source)
    (hbase : disk.resolve source = .ok base)
    (hplace : disk.locate true base = .ok (.taken place .directory))
    (hskipped : ∀ path ∈ skipped, ∃ real, disk.resolve path = .ok real) :
    ∃ reals, (∀ real, real ∈ reals ↔ ∃ path ∈ skipped, disk.resolve path = .ok real) ∧
      (sourceFiles disk exclusions root suffixes skipped).run.value =
        .ok ((filesBelow disk ⟨exclusions, placesOf reals⟩ (disk.entries.length + 1) place
          []).filterMap (sourceFile? base (suffixes.map lowerCase))) := by
  obtain ⟨reals, hreals⟩ := exists_mapM_eq_ok (f := fun path =>
    (disk.resolve path).mapError DiscoveryError.path) fun path hpath => by
      obtain ⟨real, hreal⟩ := hskipped path hpath
      exact ⟨real, mapError_eq_ok_iff.2 hreal⟩
  refine ⟨reals, fun real => ?_, ?_⟩
  · simp only [mem_iff_of_mapM_eq_ok hreals, mapError_eq_ok_iff]
  · have hbaseOf : baseOf disk root = .ok base := baseOf_eq_ok_iff.2
      ⟨source, hsource, hbase, Disk.isDirectory?_eq_true_iff.2 ⟨place, hplace⟩⟩
    rw [value_sourceFiles, hbaseOf, hreals, ← placeOf_eq hplace]
    rfl

theorem mem_map_relative_iff {wanted : List String} {relative : String} :
    relative ∈ ((filesBelow disk omissions (disk.entries.length + 1) place []).filterMap
        (sourceFile? base wanted)).map SourceFile.relative ↔
      ∃ names, relative = relativeText names ∧ omissions.Finds disk place [] names ∧
        ∃ file, sourceFile? base wanted names = some file := by
  rw [List.mem_map]
  constructor
  · rintro ⟨file, hmem, rfl⟩
    obtain ⟨names, hnames, hfile⟩ := List.mem_filterMap.1 hmem
    obtain ⟨_, rfl, hfinds⟩ := mem_filesBelow_all_iff.1 hnames
    exact ⟨_, (sourceFile?_eq_some_iff.1 hfile).2.1, hfinds, file, hfile⟩
  · rintro ⟨names, rfl, hfinds, file, hfile⟩
    exact ⟨file, List.mem_filterMap.2 ⟨names, mem_filesBelow_all_iff.2 ⟨names, rfl, hfinds⟩, hfile⟩,
      (sourceFile?_eq_some_iff.1 hfile).2.1⟩

/-- A scan of a tree, links included, from a root that stands for a base, which leads to the
directory at a place. -/
theorem sourceFiles_lists_exactly (htree : disk.IsLinkedTree) (excludes : List String)
    (root : String) (suffixes : List String) (skipped : List Path)
    (hsource : disk.expandHome (.ofString root) = .ok source)
    (hbase : disk.resolve source = .ok base)
    (hplace : disk.locate true base = .ok (.taken place .directory))
    (hskipped : ∀ path ∈ skipped, ∃ real, disk.resolve path = .ok real) :
    ∃ files, (sourceFiles disk (Exclusion.parseAll excludes) root suffixes skipped).run.value =
        .ok files ∧
      (files.map SourceFile.relative).Nodup ∧
      (∀ relative, relative ∈ files.map SourceFile.relative ↔ ∃ names,
        relative = relativeText names ∧ IsListed disk excludes suffixes skipped base place names) ∧
      files.Pairwise (fun file file' =>
        Precedes (slashParts file.relative) (slashParts file'.relative)) ∧
      ∀ other, disk.Reordered other →
        (sourceFiles other (Exclusion.parseAll excludes) root suffixes skipped).run.value =
          .ok files := by
  obtain ⟨reals, hreals, hvalue⟩ := exists_value_sourceFiles
    (Exclusion.parseAll excludes) suffixes hsource hbase hplace hskipped
  have hclean : base.IsClean := Disk.isClean_of_resolve (fun name hname =>
    (htree.isFileName htree.workingDirectory name hname).toIsPathName) hbase
  -- what a scan finds are proper names, which are read back from their text
  have hparts : ∀ {names file}, names ∈ filesBelow disk ⟨Exclusion.parseAll excludes,
      placesOf reals⟩ (disk.entries.length + 1) place [] →
        sourceFile? base (suffixes.map lowerCase) names = some file →
          slashParts file.relative = names := by
    intro names file hnames hfile
    obtain ⟨_, rfl, hfinds⟩ := mem_filesBelow_all_iff.1 hnames
    obtain ⟨-, entry, hentry, -⟩ := (finds_iff htree).1 hfinds
    rw [(sourceFile?_eq_some_iff.1 hfile).2.1]
    exact slashParts_intercalate hfinds.ne_nil fun name hname =>
      (htree.isFileName hentry name (List.mem_append_right _ hname)).no_slash
  have hpairwise : ((filesBelow disk ⟨Exclusion.parseAll excludes, placesOf reals⟩
      (disk.entries.length + 1) place []).filterMap
        (sourceFile? base (suffixes.map lowerCase))).Pairwise fun file file' =>
          Precedes (slashParts file.relative) (slashParts file'.relative) := by
    rw [List.pairwise_filterMap]
    refine (pairwise_filesBelow htree.nodup _ _ _ _).imp_of_mem
      fun hnames hnames' hprecedes file hfile file' hfile' => ?_
    rwa [hparts hnames hfile, hparts hnames' hfile']
  refine ⟨_, hvalue, ?_, fun relative => ?_, hpairwise, fun other hother => ?_⟩
  · rw [List.nodup_iff_pairwise_ne, List.pairwise_map]
    exact hpairwise.imp fun hprecedes hsame => hprecedes.ne (by rw [hsame])
  · rw [mem_map_relative_iff]
    exact exists_congr fun names => and_congr_right fun _ =>
      (isListed_iff htree hclean hplace hreals).symm
  · rw [value_sourceFiles_of_reordered hother, hvalue]

/-- A directory `r` with two files, a link to one of them, a link to a directory, and a reserved
directory; `s` is a link to it. -/
def linked : Disk where
  entries := [(["r"], .directory), (["r", "b.js"], .file []), (["r", "a"], .directory),
    (["r", "a", "c.css"], .file []), (["r", "l.js"], .link "b.js"), (["r", "d"], .link "a"),
    (["r", "node_modules"], .directory), (["r", "node_modules", "x.js"], .file []),
    (["s"], .link "r")]
  workingDirectory := []
  home := ⟨.root, ["home"]⟩

theorem isListed_linked : IsListed linked ["*.sql"] [".JS", ".css"] [⟨.working, ["m"]⟩]
    ⟨.root, ["r"]⟩ ["r"] ["a", "c.css"] where
  ne_nil := by decide
  there := ⟨.file [], by decide⟩
  no_directory := by decide +kernel
  requested := by decide +kernel
  supported := by decide +kernel
  kept := by decide +kernel
  entered above below hsplit habove hbelow := by
    obtain rfl : above = ["a"] := by
      rcases List.cons_eq_append_iff.1 hsplit with ⟨hnil, -⟩ | ⟨above', rfl, hrest⟩
      · exact absurd hnil habove
      · rcases List.singleton_eq_append_iff.1 hrest with ⟨rfl, -⟩ | ⟨-, hnil⟩
        · rfl
        · exact absurd hnil hbelow
    exact ⟨by decide, by decide +kernel, by decide +kernel⟩

/-- A scan through a link to a directory, which asks for suffixes in capitals. -/
theorem sourceFiles_lists_linked :
    linked.IsLinkedTree ∧ linked.resolve ⟨.working, ["s"]⟩ = .ok ⟨.root, ["r"]⟩ ∧
      ∃ files, (sourceFiles linked (Exclusion.parseAll ["*.sql"]) "s" [".JS", ".css"]
          [⟨.working, ["m"]⟩]).run.value = .ok files ∧ (files.map SourceFile.relative).Nodup ∧
        relativeText ["a", "c.css"] ∈ files.map SourceFile.relative := by
  have htree : linked.IsLinkedTree := by decide +kernel
  have hbase : linked.resolve ⟨.working, ["s"]⟩ = .ok ⟨.root, ["r"]⟩ := by decide +kernel
  have hplace : linked.locate true ⟨.root, ["r"]⟩ = .ok (.taken ["r"] .directory) := by
    decide +kernel
  obtain ⟨files, hvalue, hnodup, hlisted, -⟩ := sourceFiles_lists_exactly htree ["*.sql"] "s"
    [".JS", ".css"] [⟨.working, ["m"]⟩] (by decide +kernel) hbase hplace
    (List.forall_mem_singleton.2 ⟨⟨.root, ["m"]⟩, by decide +kernel⟩)
  exact ⟨htree, hbase, files, hvalue, hnodup, (hlisted _).2 ⟨_, rfl, isListed_linked⟩⟩

end Discovery

end Minifier
