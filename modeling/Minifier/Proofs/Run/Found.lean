import Minifier.Proofs.Discovery
import Minifier.Proofs.Run.Survey

/-!
# What a survey of a tree finds

On a tree the files that a survey finds are known from the places that hold files
(`Run.found_eq_ok_iff`, `Run.mem_sourcesBelow_iff`). So two trees with files at the same places have
the same survey (`Run.filter_sourcesBelow_congr`), and every file that is found stands at a place of
its own, outside of what the survey skips (`Run.IsSource`).
-/

set_option autoImplicit false

namespace Minifier

namespace Run

open Discovery

variable {combine : Bool} {rules : Option RuleSet} {source target path : Path}
  {output : Option Path} {file : SourceFile} {files : List SourceFile} {disk disk' : Disk}
  {omissions : Omissions} {suffixes names : List String} {base : Location} {view view' : View}
  {directories skipped : List Path}

/-! ## Files below a place -/

/-- The supported files that a scan finds below a place. -/
def sourcesBelow (disk : Disk) (omissions : Omissions) (suffixes : List String) (base : Location) :
    List SourceFile :=
  (filesBelow disk omissions (disk.entries.length + 1) base []).filterMap
    (sourceFile? ⟨.root, base⟩ (suffixes.map lowerCase))

/-- A file below a base that nothing leaves out, with the names that lead to it. -/
structure IsSource (disk : Disk) (omissions : Omissions) (base : Location) (file : SourceFile)
    (names : List String) : Prop where
  path : file.path = ⟨.root, base ++ names⟩
  relative : file.relative = relativeText names
  kind : Kind.ofPath? file.path = some file.kind
  admitted : omissions.Admits base [] names
  content : ∃ content, disk.contentAt? (base ++ names) = some content

theorem mem_sourcesBelow_iff (htree : disk.IsTree) :
    file ∈ sourcesBelow disk omissions suffixes base ↔
      ∃ names, IsSource disk omissions base file names ∧
        (suffixes.map lowerCase).contains (lowerCase file.path.suffix) = true := by
  rw [sourcesBelow, List.mem_filterMap]
  constructor
  · rintro ⟨names, hmem, hfile⟩
    obtain ⟨hpath, hrelative, hkind, hwanted⟩ := sourceFile?_eq_some_iff.1 hfile
    obtain ⟨names', rfl, hfinds⟩ := mem_filesBelow_all_iff.1 hmem
    obtain ⟨hadmits, hcontent⟩ := (finds_iff_of_isTree htree).1 hfinds
    exact ⟨_, ⟨hpath, hrelative, hkind, hadmits, hcontent⟩, hwanted⟩
  · rintro ⟨names, ⟨hpath, hrelative, hkind, hadmits, hcontent⟩, hwanted⟩
    exact ⟨names,
      mem_filesBelow_all_iff.2 ⟨names, rfl, (finds_iff_of_isTree htree).2 ⟨hadmits, hcontent⟩⟩,
      sourceFile?_eq_some_iff.2 ⟨hpath, hrelative, hkind, hwanted⟩⟩

/-- No file is found twice. -/
theorem nodup_sourcesBelow (htree : disk.IsTree) (omissions : Omissions) (suffixes : List String)
    (base : Location) : (sourcesBelow disk omissions suffixes base).Nodup := by
  refine (nodup_of_pairwise_precedes
    (pairwise_filesBelow htree.nodup omissions _ base [])).filterMap
      fun names names' file hfile hfile' => ?_
  have hpath := (sourceFile?_eq_some_iff.1 hfile).1
  rw [(sourceFile?_eq_some_iff.1 hfile').1] at hpath
  exact (List.append_cancel_left (Path.mk.inj hpath).2).symm

/-- Two trees that have files at the same places, as far as these are kept and nothing leaves them
out, have the same files. -/
theorem filter_sourcesBelow_congr (htree : disk.IsTree) (htree' : disk'.IsTree)
    (keep : Location → Bool)
    (h : ∀ names, omissions.Admits base [] names → keep (base ++ names) = true →
      ((∃ content, disk.contentAt? (base ++ names) = some content) ↔
        ∃ content, disk'.contentAt? (base ++ names) = some content)) :
    (sourcesBelow disk omissions suffixes base).filter (fun file => keep file.path.names) =
      (sourcesBelow disk' omissions suffixes base).filter fun file => keep file.path.names := by
  -- dropping files is dropping relative paths
  have hfilter : ∀ disk : Disk,
      (sourcesBelow disk omissions suffixes base).filter (fun file => keep file.path.names) =
        ((filesBelow disk omissions (disk.entries.length + 1) base []).filter
          fun names => keep (base ++ names)).filterMap
            (sourceFile? ⟨.root, base⟩ (suffixes.map lowerCase)) := by
    intro disk
    rw [sourcesBelow, List.filter_filterMap, List.filterMap_filter]
    refine List.filterMap_congr fun names _ => ?_
    cases hfile : sourceFile? ⟨.root, base⟩ (suffixes.map lowerCase) names with
    | none => simp
    | some file => simp [Option.filter, (sourceFile?_eq_some_iff.1 hfile).1]
  have hmem : ∀ {disk : Disk}, disk.IsTree → ∀ names,
      names ∈ (filesBelow disk omissions (disk.entries.length + 1) base []).filter
          (fun names => keep (base ++ names)) ↔
        keep (base ++ names) = true ∧ omissions.Admits base [] names ∧
          ∃ content, disk.contentAt? (base ++ names) = some content := by
    intro disk htree names
    rw [List.mem_filter, mem_filesBelow_all_iff, and_comm]
    refine and_congr_right fun _ => ?_
    constructor
    · rintro ⟨names', rfl, hfinds⟩
      exact (finds_iff_of_isTree htree).1 hfinds
    · exact fun h => ⟨names, rfl, (finds_iff_of_isTree htree).2 h⟩
  rw [hfilter, hfilter]
  congr 1
  refine eq_of_forall_mem_iff ((pairwise_filesBelow htree.nodup _ _ _ _).filter _)
    ((pairwise_filesBelow htree'.nodup _ _ _ _).filter _) fun names => ?_
  rw [hmem htree, hmem htree']
  exact and_congr_right fun hkeep => and_congr_right fun hadmits => h names hadmits hkeep

/-! ## Finding files -/

/-- The directories at which a scan stops, and the exclusions in force. -/
def omissionsOf (directories : List Path) (view : View) : Omissions :=
  ⟨view.exclusions, directories.map view.disk.locationOf⟩

/-- What a survey of a tree keeps: the files below its source, less those that it skips. -/
def sourcesOf (source : Path) (suffixes : List String) (directories skipped : List Path)
    (view : View) : List SourceFile :=
  (sourcesBelow view.disk (omissionsOf directories view) suffixes
    (view.disk.locationOf source)).filter fun file =>
      !(skipped.map view.disk.locationOf).contains file.path.names

theorem filesOf?_eq_ok_some_iff {scan : Except DiscoveryError (List SourceFile)} :
    filesOf? scan = .ok (some files) ↔ scan = .ok files := by
  cases scan with
  | ok found => simp [filesOf?]
  | error error => cases error <;> simp [filesOf?]

/-- The directories at which a scan stops stand where their paths lead. -/
theorem placesOf_map_realPath (hplain : disk.IsPlain) (paths : List Path) :
    placesOf (paths.map disk.realPath) = paths.map disk.locationOf := by
  have hroot : ∀ path ∈ paths.map disk.realPath, (path.anchor == .root) = true := by
    rintro _ hpath
    obtain ⟨path, -, rfl⟩ := List.mem_map.1 hpath
    rw [Disk.realPath_eq hplain]
    rfl
  rw [placesOf, List.filter_eq_self.2 hroot, List.map_map]
  rfl

theorem scanned?_eq_ok_some_iff (htree : view.disk.IsTree) (hsource : source.IsClean)
    (hexpanded : view.disk.expandHome source = .ok source) :
    scanned? source suffixes directories view = .ok (some files) ↔
      Disk.hasNull source = false ∧ (∀ path ∈ directories, Disk.hasNull path = false) ∧
        view.disk.isDirectory? (view.disk.realPath source) = .ok true ∧
          files = sourcesBelow view.disk (omissionsOf directories view) suffixes
            (view.disk.locationOf source) := by
  have hplain := htree.toIsPlain
  -- the scan goes over the place that the source stands for
  have hplace : view.disk.isDirectory? (view.disk.realPath source) = .ok true →
      placeOf view.disk ⟨.root, view.disk.locationOf source⟩ = view.disk.locationOf source := by
    rw [Disk.realPath_eq hplain]
    exact fun hdirectory => placeOf_of_isPlain hplain hdirectory
      (htree.locationOf_ne_up hsource)
  rw [scanned?, filesOf?_eq_ok_some_iff, value_sourceFiles]
  constructor
  · intro h
    obtain ⟨base, hbase, h⟩ := bind_eq_ok_iff.1 h
    obtain ⟨reals, hreals, h⟩ := bind_eq_ok_iff.1 h
    obtain ⟨path, hpath, hresolve, hdirectory⟩ := baseOf_eq_ok_iff.1 hbase
    rw [Path.ofString_toString hsource, hexpanded] at hpath
    cases hpath
    have hnull := Disk.hasNull_of_resolve hresolve
    rw [Disk.resolve_of_isPlain hplain hnull] at hresolve
    cases hresolve
    obtain ⟨hnulls, rfl⟩ := (Disk.mapM_resolve_eq_ok_iff hplain).1 hreals
    refine ⟨hnull, hnulls, hdirectory, ?_⟩
    rw [placesOf_map_realPath hplain, Disk.realPath_eq hplain, hplace hdirectory] at h
    exact (Except.ok.inj h).symm
  · rintro ⟨hnull, hnulls, hdirectory, rfl⟩
    refine bind_eq_ok_iff.2 ⟨view.disk.realPath source,
      baseOf_eq_ok_iff.2 ⟨source, ?_, ?_, hdirectory⟩,
      bind_eq_ok_iff.2 ⟨directories.map view.disk.realPath,
        (Disk.mapM_resolve_eq_ok_iff hplain).2 ⟨hnulls, rfl⟩, ?_⟩⟩
    · rw [Path.ofString_toString hsource, hexpanded]
    · exact Disk.resolve_of_isPlain hplain hnull
    · rw [placesOf_map_realPath hplain, Disk.realPath_eq hplain, hplace hdirectory]
      rfl

/-- The path of a file that is found stands for itself. -/
theorem resolved_of_mem_sourcesBelow (htree : view.disk.IsTree)
    (hfile : file ∈ sourcesBelow view.disk omissions suffixes base) :
    resolved file.path view = .ok file.path := by
  obtain ⟨names, hsource, -⟩ := (mem_sourcesBelow_iff htree).1 hfile
  obtain ⟨content, hcontent⟩ := hsource.content
  rw [resolved, hsource.path, htree.resolve_entry (Disk.contentAt?_eq_some_iff.1 hcontent)]
  rfl

/-- The files that are found are kept unless the survey skips the places that they stand at. -/
theorem filterM_sourcesBelow (htree : view.disk.IsTree) :
    ((sourcesBelow view.disk (omissionsOf directories view) suffixes
        (view.disk.locationOf source)).filterM fun file => do
      return !(skipped.map view.disk.realPath).contains (← resolved file.path view) :
        Except Failure (List SourceFile)) =
      .ok (sourcesOf source suffixes directories skipped view) := by
  refine filterM_eq_ok fun file hfile => ?_
  rw [resolved_of_mem_sourcesBelow htree hfile]
  show Except.ok _ = Except.ok _
  obtain ⟨names, hsource, -⟩ := (mem_sourcesBelow_iff htree).1 hfile
  have hreal : ∀ path, view.disk.realPath path = file.path ↔
      view.disk.locationOf path = file.path.names := by
    intro path
    rw [Disk.realPath_eq htree.toIsPlain, hsource.path, Path.mk.injEq]
    exact and_iff_right rfl
  simp only [List.contains_eq_mem, List.mem_map, hreal]

/-- What a survey of a tree finds: the files that it keeps, if there are any. -/
theorem found_eq_ok_iff (htree : view.disk.IsTree) (hsource : source.IsClean)
    (hexpanded : view.disk.expandHome source = .ok source) :
    found source suffixes directories skipped view = .ok (.ok files) ↔
      (Disk.hasNull source = false ∧ (∀ path ∈ directories, Disk.hasNull path = false) ∧
          (∀ path ∈ skipped, Disk.hasNull path = false) ∧
            view.disk.isDirectory? (view.disk.realPath source) = .ok true) ∧
        files ≠ [] ∧ files = sourcesOf source suffixes directories skipped view := by
  have hplain := htree.toIsPlain
  constructor
  · intro h
    obtain ⟨scan, hscan, h⟩ := bind_eq_ok_iff.1 h
    cases scan with
    | none => cases h
    | some all =>
      obtain ⟨hnull, hnulls, hdirectory, rfl⟩ :=
        (scanned?_eq_ok_some_iff htree hsource hexpanded).1 hscan
      obtain ⟨reals, hreals, h⟩ := bind_eq_ok_iff.1 h
      obtain ⟨hskipped, rfl⟩ := (Disk.mapM_resolve_eq_ok_iff hplain).1 hreals
      rw [filterM_sourcesBelow htree] at h
      refine ⟨⟨hnull, hnulls, hskipped, hdirectory⟩, ?_⟩
      have h := Except.ok.inj h
      split at h
      · cases h
      · next hne =>
        cases h
        exact ⟨fun hnil => hne (by rw [hnil]; rfl), rfl⟩
  · rintro ⟨⟨hnull, hnulls, hskipped, hdirectory⟩, hne, rfl⟩
    refine bind_eq_ok_iff.2 ⟨some _,
      (scanned?_eq_ok_some_iff htree hsource hexpanded).2 ⟨hnull, hnulls, hdirectory, rfl⟩,
      bind_eq_ok_iff.2 ⟨skipped.map view.disk.realPath,
        (Disk.mapM_resolve_eq_ok_iff hplain).2 ⟨hskipped, rfl⟩, ?_⟩⟩
    rw [filterM_sourcesBelow htree]
    show Except.ok _ = Except.ok _
    rw [if_neg (by simpa using hne)]

/-- The files that a survey finds are sources that it does not skip, each of them once. -/
theorem isSource_of_found (htree : view.disk.IsTree) (hsource : source.IsClean)
    (hexpanded : view.disk.expandHome source = .ok source)
    (h : found source suffixes directories skipped view = .ok (.ok files)) :
    files.Nodup ∧ ∀ file ∈ files, file.path.names ∉ skipped.map view.disk.locationOf ∧
      ∃ names, IsSource view.disk (omissionsOf directories view) (view.disk.locationOf source)
        file names := by
  obtain ⟨-, -, rfl⟩ := (found_eq_ok_iff htree hsource hexpanded).1 h
  refine ⟨(nodup_sourcesBelow htree _ _ _).filter _, fun file hfile => ?_⟩
  obtain ⟨hmem, hkept⟩ := List.mem_filter.1 hfile
  obtain ⟨names, hnames, -⟩ := (mem_sourcesBelow_iff htree).1 hmem
  exact ⟨by simpa using hkept, names, hnames⟩

/-! ## Surveys -/

/-- The path that a run over a directory writes to: the one given, or one beside the source. -/
def targetSeen (combine : Bool) (rules : Option RuleSet) (source : Path) (output : Option Path)
    (view : View) : Except Failure Path :=
  match output with
  | some output => .ok output
  | none =>
    besideOf source view >>= fun beside =>
      if combine then (combinedNameOf rules source view).map beside.child else .ok beside

/-- Where a run over a directory writes to, with the directories and the files that its survey
skips. -/
def placed (combine : Bool) (rules : Option RuleSet) (source : Path) (output : Option Path)
    (view : View) : Except Failure (Path × List Path × List Path) :=
  targetSeen combine rules source output view >>= fun target =>
    if combine then (besideOf source view).map fun beside => (target, [beside], [target])
    else .ok (target, [target], [])

theorem surveyed_eq (combine : Bool) (rules : Option RuleSet) (source : Path)
    (output : Option Path) (view : View) :
    surveyed combine rules source output view = (do
      let source ← (view.disk.expandHome source).mapError .path
      let (target, directories, skipped) ← placed combine rules source output view
      return (target, ← found source (suffixesOf rules) directories skipped view)) := by
  rw [surveyed]
  refine bind_congr fun source => ?_
  rw [placed, targetSeen.eq_def]
  cases hbeside : besideOf source view with
  | error failure => cases combine <;> cases output <;> rfl
  | ok beside =>
    cases combine with
    | false => cases output <;> rfl
    | true =>
      cases output with
      | some output => rfl
      | none => cases hname : combinedNameOf rules source view <;> rfl

theorem surveyed_eq_ok_iff {result : Except String (List SourceFile)} :
    surveyed combine rules source output view = .ok (target, result) ↔
      ∃ expanded directories skipped, view.disk.expandHome source = .ok expanded ∧
        placed combine rules expanded output view = .ok (target, directories, skipped) ∧
          found expanded (suffixesOf rules) directories skipped view = .ok result := by
  rw [surveyed_eq]
  constructor
  · intro h
    obtain ⟨expanded, hexpand, h⟩ := bind_eq_ok_iff.1 h
    obtain ⟨⟨target', directories, skipped⟩, hplaced, h⟩ := bind_eq_ok_iff.1 h
    obtain ⟨result', hfound, h⟩ := bind_eq_ok_iff.1 h
    cases h
    exact ⟨expanded, directories, skipped, mapError_eq_ok_iff.1 hexpand, hplaced, hfound⟩
  · rintro ⟨expanded, directories, skipped, hexpand, hplaced, hfound⟩
    exact bind_eq_ok_iff.2 ⟨expanded, mapError_eq_ok_iff.2 hexpand,
      bind_eq_ok_iff.2 ⟨_, hplaced, bind_eq_ok_iff.2 ⟨result, hfound, rfl⟩⟩⟩

/-- Where a run writes to depends on the disk only by what its source stands for. -/
theorem placed_congr (h : resolved source view' = resolved source view) :
    placed combine rules source output view' = placed combine rules source output view := by
  have hbeside : besideOf source view' = besideOf source view := by
    rw [besideOf, besideOf, h]
  have hname : combinedNameOf rules source view' = combinedNameOf rules source view := by
    cases rules with
    | some rules => rfl
    | none => rw [combinedNameOf, combinedNameOf, h]
  rw [placed, placed, targetSeen.eq_def, targetSeen.eq_def, hbeside, hname]

/-- A run that writes each file by itself skips its output, and no file. -/
theorem placed_separately
    (h : placed false rules source output view = .ok (target, directories, skipped)) :
    directories = [target] ∧ skipped = [] := by
  obtain ⟨_, -, h⟩ := bind_eq_ok_iff.1 h
  cases h
  exact ⟨rfl, rfl⟩

/-- A run that puts all files into one skips that one, and the directory beside its source. -/
theorem placed_together
    (h : placed true rules source output view = .ok (target, directories, skipped)) :
    skipped = [target] ∧ ∃ beside, besideOf source view = .ok beside ∧ directories = [beside] := by
  obtain ⟨_, -, h⟩ := bind_eq_ok_iff.1 h
  obtain ⟨beside, hbeside, h⟩ := map_eq_ok_iff.1 h
  cases h
  exact ⟨rfl, beside, hbeside, rfl⟩

/-- What a path of a tree stands for is a clean path. -/
theorem isClean_of_resolved (htree : view.disk.IsTree) {real : Path}
    (h : resolved source view = .ok real) : real.IsClean := by
  have hresolve := mapError_eq_ok_iff.1 h
  rw [Disk.resolve_of_isPlain htree.toIsPlain (Disk.hasNull_of_resolve hresolve)] at hresolve
  cases hresolve
  rw [Disk.realPath_eq_landing htree.toIsPlain]
  have hnames := Path.isClean_ofString source.toString
  refine Disk.forall_walk_of_forall (by simp) fun name hname _ => ?_
  split at hname
  · exact hnames name hname
  · rcases List.mem_append.1 hname with hname | hname
    · exact (htree.isFileName htree.workingDirectory name hname).toIsPathName
    · exact hnames name hname

/-- The name of a clean path has no slash. -/
theorem not_mem_name (h : path.IsClean) : '/' ∉ path.name.toList := by
  rw [Path.name]
  cases hlast : path.names.getLast? with
  | none => simp
  | some name => exact (h name (List.mem_of_getLast? hlast)).no_slash

theorem isClean_of_besideOf (htree : view.disk.IsTree) {beside : Path}
    (h : besideOf source view = .ok beside) : beside.IsClean := by
  obtain ⟨real, hreal, h⟩ := bind_eq_ok_iff.1 h
  cases h
  exact (isClean_of_resolved htree hreal).parent.child (by decide)

theorem targetSeen_of_placed
    (h : placed combine rules source output view = .ok (target, directories, skipped)) :
    targetSeen combine rules source output view = .ok target := by
  obtain ⟨found, hfound, h⟩ := bind_eq_ok_iff.1 h
  cases combine with
  | false =>
    cases h
    exact hfound
  | true =>
    obtain ⟨beside, -, h⟩ := map_eq_ok_iff.1 h
    cases h
    exact hfound

/-- The combined file has a name, be it given by the rule set or taken from the source. -/
theorem isPathName_of_combinedNameOf (htree : view.disk.IsTree) {name : String}
    (hrules : ∀ set, rules = some set → IsPathName set.combinedName)
    (h : combinedNameOf rules source view = .ok name) : IsPathName name := by
  cases rules with
  | some set =>
    cases h
    exact hrules set rfl
  | none =>
    obtain ⟨real, hreal, h⟩ := bind_eq_ok_iff.1 h
    cases h
    refine ⟨fun h => ?_, fun h => ?_, ?_⟩
    · have hlength := congrArg (fun text => text.toList.length) h
      simp at hlength
    · have hlength := congrArg (fun text => text.toList.length) h
      simp at hlength
    · rw [String.toList_append, List.mem_append, not_or]
      exact ⟨not_mem_name (isClean_of_resolved htree hreal), by decide⟩

/-- A run writes to a clean path. -/
theorem isClean_of_placed (htree : view.disk.IsTree)
    (houtput : ∀ path, output = some path → path.IsClean)
    (hrules : combine = true → ∀ set, rules = some set → IsPathName set.combinedName)
    (h : placed combine rules source output view = .ok (target, directories, skipped)) :
    target.IsClean := by
  have htarget := targetSeen_of_placed h
  cases output with
  | some path =>
    cases htarget
    exact houtput _ rfl
  | none =>
    obtain ⟨beside, hbesideOf, htarget⟩ := bind_eq_ok_iff.1 htarget
    cases combine with
    | false =>
      cases htarget
      exact isClean_of_besideOf htree hbesideOf
    | true =>
      obtain ⟨name, hname, rfl⟩ := map_eq_ok_iff.1 htarget
      exact (isClean_of_besideOf htree hbesideOf).child
        (isPathName_of_combinedNameOf htree (hrules rfl) hname)

theorem isClean_of_surveyed (htree : view.disk.IsTree)
    (houtput : ∀ path, output = some path → path.IsClean)
    (hrules : combine = true → ∀ set, rules = some set → IsPathName set.combinedName)
    {result : Except String (List SourceFile)}
    (h : surveyed combine rules source output view = .ok (target, result)) : target.IsClean := by
  obtain ⟨expanded, directories, skipped, -, hplaced, -⟩ := surveyed_eq_ok_iff.1 h
  exact isClean_of_placed htree houtput hrules hplaced

end Run

end Minifier
