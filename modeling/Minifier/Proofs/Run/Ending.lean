import Minifier.Proofs.Discovery.Listing
import Minifier.Proofs.Run.Found
import Minifier.Proofs.Run.Plan

/-!
# When a run ends with a summary

Files that cannot be read and outputs that cannot be written are counted, and so are links that lead
nowhere. What ends a run over a directory without a summary is a path that it has to resolve and
that leads through links without end (`Disk.Circles`): its output, the directory beside its source,
or a file that its scan has found (`Run.ends_with_summary_iff`).
-/

set_option autoImplicit false

namespace Minifier

/-! ## Links without end -/

namespace Disk

variable {disk : Disk} {path : Path}

/-- A path leads through links without end, and so does what is left of it once its links are
followed. -/
def Circles (disk : Disk) (path : Path) : Prop :=
  disk.stat (disk.realPath path) = .error .tooManyLinks

instance (disk : Disk) (path : Path) : Decidable (disk.Circles path) :=
  inferInstanceAs (Decidable (disk.stat (disk.realPath path) = .error .tooManyLinks))

/-- A path can be resolved unless it leads through links without end. -/
theorem exists_resolve_iff (hnull : hasNull path = false) :
    (∃ real, disk.resolve path = .ok real) ↔ ¬ disk.Circles path := by
  rw [resolve, if_neg (by simp [hnull]), Circles]
  cases hstat : disk.stat (disk.realPath path) with
  | ok entry => simp [hstat]
  | error error => cases error <;> simp [hstat]

end Disk

namespace Run

open Discovery Job

variable {combine : Bool} {rules : Option RuleSet} {request : Request} {settings : Settings}
  {source target path : Path} {output : Option Path} {file : SourceFile} {files : List SourceFile}
  {directories skipped : List Path} {suffixes : List String} {view : View} {place : Location}
  {s t : Session} {summary : Summary}

/-! ## Surveys -/

/-- A survey begins at a source that is there: its path is clean, has its tilde replaced, and leads
to the directory at a place. -/
structure Begins (view : View) (source : Path) (place : Location) : Prop where
  tree : view.disk.IsLinkedTree
  clean : source.IsClean
  expanded : view.disk.expandHome source = .ok source
  leads : view.disk.locate true source = .ok (.taken place .directory)

theorem Begins.resolve (h : Begins view source place) :
    view.disk.resolve source = .ok ⟨.root, place⟩ :=
  h.tree.resolve_of_locate h.clean h.leads

theorem Begins.resolved (h : Begins view source place) :
    resolved source view = .ok ⟨.root, place⟩ := by
  rw [Run.resolved, h.resolve]
  rfl

/-- The directory beside a place that is written to where none is given. -/
def outputBeside (place : Location) : Path :=
  ⟨.root, place.dropLast ++ [outputName]⟩

theorem Begins.besideOf_eq (h : Begins view source place) :
    besideOf source view = .ok (outputBeside place) := by
  rw [besideOf, h.resolved]
  rfl

/-- A run whose source is there knows where it writes to and what its survey skips. -/
theorem Begins.exists_placed (h : Begins view source place) (combine : Bool)
    (rules : Option RuleSet) (output : Option Path) :
    ∃ target directories skipped,
      placed combine rules source output view = .ok (target, directories, skipped) := by
  have hname : ∃ name, combinedNameOf rules source view = .ok name := by
    cases rules with
    | some rules => exact ⟨_, rfl⟩
    | none =>
      rw [combinedNameOf, h.resolved]
      exact ⟨_, rfl⟩
  obtain ⟨name, hname⟩ := hname
  rw [placed, targetSeen.eq_def, h.besideOf_eq, hname]
  cases combine with
  | true => cases output <;> exact ⟨_, _, _, rfl⟩
  | false => cases output <;> exact ⟨_, _, _, rfl⟩

/-- A scan of a source that is there gives files. -/
theorem Begins.exists_scanned? (h : Begins view source place) (suffixes : List String)
    (hdirectories : ∀ path ∈ directories, ∃ real, view.disk.resolve path = .ok real) :
    ∃ omissions, scanned? source suffixes directories view =
      .ok (some ((filesBelow view.disk omissions (view.disk.entries.length + 1) place []).filterMap
        (sourceFile? ⟨.root, place⟩ (suffixes.map lowerCase)))) := by
  have hsource : view.disk.expandHome (.ofString source.toString) = .ok source := by
    rw [Path.ofString_toString h.clean, h.expanded]
  obtain ⟨reals, -, hvalue⟩ := exists_value_sourceFiles view.exclusions suffixes hsource
    h.resolve (h.tree.locate_place (h.tree.entryAt?_of_locate h.leads) (.inr fun target => by simp))
    hdirectories
  exact ⟨_, filesOf?_eq_ok_some_iff.2 hvalue⟩

/-- A scan resolves the directories that it skips. -/
theorem Begins.resolves_of_scanned? (h : Begins view source place)
    {scan : Option (List SourceFile)}
    (hscan : scanned? source suffixes directories view = .ok scan) :
    ∀ path ∈ directories, ∃ real, view.disk.resolve path = .ok real := by
  have hbase : baseOf view.disk source.toString = .ok ⟨.root, place⟩ := baseOf_eq_ok_iff.2
    ⟨source, by rw [Path.ofString_toString h.clean, h.expanded], h.resolve,
      Disk.isDirectory?_eq_true_iff.2 ⟨place, h.tree.locate_place
        (h.tree.entryAt?_of_locate h.leads) (.inr fun target => by simp)⟩⟩
  rw [scanned?, value_sourceFiles, hbase] at hscan
  cases hreals : directories.mapM fun path =>
    (view.disk.resolve path).mapError DiscoveryError.path with
  | ok reals =>
    intro path hpath
    obtain ⟨real, hreal⟩ := forall_of_mapM_eq_ok hreals path hpath
    exact ⟨real, mapError_eq_ok_iff.1 hreal⟩
  | error error =>
    -- the error is that of a path, which a scan does not pass over
    obtain ⟨path, -, herror⟩ := exists_of_mapM_eq_error hreals
    obtain ⟨reason, rfl⟩ : ∃ reason, error = .path reason := by
      cases hresolve : view.disk.resolve path with
      | ok real =>
        rw [hresolve] at herror
        cases herror
      | error reason =>
        rw [hresolve] at herror
        cases herror
        exact ⟨reason, rfl⟩
    rw [hreals] at hscan
    cases hscan

/-- What is known of the files that a scan gives: their paths, and those that they are written to,
have no null character. -/
theorem Begins.hasNull_of_scanned? (h : Begins view source place)
    (hscan : scanned? source suffixes directories view = .ok (some files)) (hfile : file ∈ files) :
    Disk.hasNull file.path = false ∧
      ∀ target, Disk.hasNull target = false → Disk.hasNull (outputOf target file) = false := by
  obtain ⟨omissions, hscan'⟩ := h.exists_scanned? suffixes (h.resolves_of_scanned? hscan)
  cases hscan.symm.trans hscan'
  obtain ⟨names, hnames, hsource⟩ := List.mem_filterMap.1 hfile
  obtain ⟨hpath, hrelative, -⟩ := sourceFile?_eq_some_iff.1 hsource
  obtain ⟨_, rfl, hfinds⟩ := mem_filesBelow_all_iff.1 hnames
  obtain ⟨-, entry, hentry, -⟩ := (finds_iff h.tree).1 hfinds
  have hproper := h.tree.isFileName hentry
  have hnull : ∀ name ∈ names, '\x00' ∉ name.toList := fun name hname =>
    (hproper name (List.mem_append_right _ hname)).no_null
  have hrelative' : Path.ofString file.relative = ⟨.working, names⟩ := by
    rw [hrelative]
    exact Path.ofString_relativeText fun name hname =>
      (hproper name (List.mem_append_right _ hname)).toIsPathName
  refine ⟨?_, fun target htarget => Disk.hasNull_eq_false fun name hname => ?_⟩
  · rw [hpath]
    exact Disk.hasNull_eq_false fun name hname => (hproper name hname).no_null
  · rw [outputOf, hrelative'] at hname
    exact (List.mem_append.1 hname).elim (Disk.not_mem_of_hasNull htarget) (hnull name)

/-- A survey finds files, or none, exactly when it can resolve what it skips and what its scan
gives. -/
theorem Begins.exists_found_iff (h : Begins view source place) :
    (∃ result, found source suffixes directories skipped view = .ok result) ↔
      (∀ path ∈ directories ++ skipped, ∃ real, view.disk.resolve path = .ok real) ∧
        ∀ files, scanned? source suffixes directories view = .ok (some files) →
          ∀ file ∈ files, ∃ real, view.disk.resolve file.path = .ok real := by
  have hresolved : ∀ {path : Path}, (∃ real, Run.resolved path view = .ok real) ↔
      ∃ real, view.disk.resolve path = .ok real := by
    intro path
    simp only [Run.resolved, mapError_eq_ok_iff]
  constructor
  · rintro ⟨result, hfound⟩
    obtain ⟨scan, hscan, hfound⟩ := bind_eq_ok_iff.1 hfound
    have hdirectories := h.resolves_of_scanned? hscan
    obtain ⟨omissions, hscan'⟩ := h.exists_scanned? suffixes hdirectories
    cases hscan.symm.trans hscan'
    obtain ⟨outputs, houtputs, hfound⟩ := bind_eq_ok_iff.1 hfound
    obtain ⟨kept, hkept, -⟩ := bind_eq_ok_iff.1 hfound
    refine ⟨fun path hpath => ?_, fun files hfiles file hfile => ?_⟩
    · exact (List.mem_append.1 hpath).elim (hdirectories path) fun hskipped =>
        hresolved.1 (forall_of_mapM_eq_ok houtputs path hskipped)
    · cases hfiles.symm.trans hscan'
      obtain ⟨isKept, htest⟩ := forall_of_filterM_eq_ok hkept file hfile
      obtain ⟨real, hreal, -⟩ := bind_eq_ok_iff.1 htest
      exact hresolved.1 ⟨real, hreal⟩
  · -- the four steps of finding: scanning, resolving what is skipped, and each file, and keeping
    rintro ⟨hpaths, hfiles⟩
    rw [List.forall_mem_append] at hpaths
    obtain ⟨omissions, hscan⟩ := h.exists_scanned? suffixes hpaths.1
    obtain ⟨outputs, houtputs⟩ :=
      exists_mapM_eq_ok fun path hpath => hresolved.2 (hpaths.2 path hpath)
    obtain ⟨kept, hkept⟩ := exists_filterM_eq_ok (f := fun file : SourceFile => do
      return !outputs.contains (← Run.resolved file.path view)) fun file hfile => by
        obtain ⟨real, hreal⟩ := hresolved.2 (hfiles _ hscan file hfile)
        exact ⟨_, bind_eq_ok_iff.2 ⟨real, hreal, rfl⟩⟩
    exact ⟨_, bind_eq_ok_iff.2 ⟨_, hscan, bind_eq_ok_iff.2 ⟨outputs, houtputs,
      bind_eq_ok_iff.2 ⟨kept, hkept, rfl⟩⟩⟩⟩

/-! ## Where a run writes to -/

/-- A rule set whose combined file has a name that a path can hold, and a header. -/
structure Bundles (rules : RuleSet) (clock : Stamp) : Prop where
  noNull : '\x00' ∉ rules.combinedName.toList
  header : ∃ text, header [] rules clock = .ok text

theorem Begins.no_null (h : Begins view source place) : ∀ name ∈ place, '\x00' ∉ name.toList :=
  fun name hname => (h.tree.isFileName (h.tree.entryAt?_of_locate h.leads) name hname).no_null

theorem Begins.hasNull_outputBeside (h : Begins view source place) :
    Disk.hasNull (outputBeside place) = false := by
  show Disk.hasNull ((⟨.root, place.dropLast⟩ : Path).child outputName) = false
  exact Disk.hasNull_child (Disk.hasNull_eq_false fun name hname =>
    h.no_null name (List.mem_of_mem_dropLast hname)) (by decide)

/-- A combined file that no rule set names has a name that a path can hold, as the source has. -/
theorem Begins.no_null_of_combinedNameOf (h : Begins view source place) {name : String}
    (hrules : ∀ set, rules = some set → '\x00' ∉ set.combinedName.toList)
    (hname : combinedNameOf rules source view = .ok name) : '\x00' ∉ name.toList := by
  cases rules with
  | some set =>
    cases hname
    exact hrules set rfl
  | none =>
    rw [combinedNameOf, h.resolved] at hname
    cases hname
    rw [String.toList_append, List.mem_append, not_or, Path.name]
    refine ⟨?_, by decide⟩
    cases hlast : place.getLast? with
    | none => simp
    | some last => exact h.no_null last (List.mem_of_getLast? hlast)

theorem Begins.hasNull_of_targetSeen (h : Begins view source place)
    (houtput : ∀ path, output = some path → Disk.hasNull path = false)
    (hrules : ∀ set, rules = some set → '\x00' ∉ set.combinedName.toList)
    (htarget : targetSeen combine rules source output view = .ok target) :
    Disk.hasNull target = false := by
  cases output with
  | some output =>
    cases htarget
    exact houtput _ rfl
  | none =>
    rw [targetSeen, h.besideOf_eq] at htarget
    cases combine with
    | false =>
      cases htarget
      exact h.hasNull_outputBeside
    | true =>
      obtain ⟨name, hname, rfl⟩ := map_eq_ok_iff.1 htarget
      exact Disk.hasNull_child h.hasNull_outputBeside (h.no_null_of_combinedNameOf hrules hname)

/-- Neither where a run writes to nor what its survey skips has a null character. -/
theorem Begins.hasNull_of_placed (h : Begins view source place)
    (houtput : ∀ path, output = some path → Disk.hasNull path = false)
    (hrules : ∀ set, rules = some set → '\x00' ∉ set.combinedName.toList)
    (hplaced : placed combine rules source output view = .ok (target, directories, skipped)) :
    Disk.hasNull target = false ∧ ∀ path ∈ directories ++ skipped, Disk.hasNull path = false := by
  obtain ⟨found, hfound, hrest⟩ := bind_eq_ok_iff.1 hplaced
  have hnull := h.hasNull_of_targetSeen houtput hrules hfound
  cases combine with
  | false =>
    cases hrest
    exact ⟨hnull, by simpa using hnull⟩
  | true =>
    rw [h.besideOf_eq] at hrest
    cases hrest
    exact ⟨hnull, by simpa using ⟨h.hasNull_outputBeside, hnull⟩⟩

/-! ## Runs -/

/-- Nothing that a run over a directory resolves leads through links without end: neither what its
survey skips, nor a file that its scan gives. -/
structure MeetsNoCircle (rules : Option RuleSet) (source : Path) (directories skipped : List Path)
    (view : View) : Prop where
  skips : ∀ path ∈ directories ++ skipped, ¬ view.disk.Circles path
  finds : ∀ files, scanned? source (suffixesOf rules) directories view = .ok (some files) →
    ∀ file ∈ files, ¬ view.disk.Circles file.path

/-- What a survey resolves are paths, so links without end are all that can be wrong with them. -/
theorem Begins.exists_found_iff_meetsNoCircle (h : Begins view source place)
    (hnull : ∀ path ∈ directories ++ skipped, Disk.hasNull path = false) :
    (∃ result, found source (suffixesOf rules) directories skipped view = .ok result) ↔
      MeetsNoCircle rules source directories skipped view := by
  have hfile : ∀ {files}, scanned? source (suffixesOf rules) directories view = .ok (some files) →
      ∀ file ∈ files, ((∃ real, view.disk.resolve file.path = .ok real) ↔
        ¬ view.disk.Circles file.path) := fun hscan file hfile =>
    Disk.exists_resolve_iff (h.hasNull_of_scanned? hscan hfile).1
  rw [h.exists_found_iff]
  constructor
  · rintro ⟨hpaths, hfiles⟩
    exact ⟨fun path hpath => (Disk.exists_resolve_iff (hnull path hpath)).1 (hpaths path hpath),
      fun files hscan file hmem => (hfile hscan file hmem).1 (hfiles files hscan file hmem)⟩
  · rintro ⟨hskips, hfinds⟩
    exact ⟨fun path hpath => (Disk.exists_resolve_iff (hnull path hpath)).2 (hskips path hpath),
      fun files hscan file hmem => (hfile hscan file hmem).2 (hfinds files hscan file hmem)⟩

/-- The files that a survey finds, and those that they are written to, have paths without a null
character. -/
theorem Begins.hasNull_of_found (h : Begins view source place)
    (hfound : found source suffixes directories skipped view = .ok (.ok files))
    (htarget : Disk.hasNull target = false) :
    ∀ file ∈ files,
      Disk.hasNull file.path = false ∧ Disk.hasNull (outputOf target file) = false := by
  obtain ⟨scan, hscan, hfound⟩ := bind_eq_ok_iff.1 hfound
  obtain ⟨omissions, hscan'⟩ := h.exists_scanned? suffixes (h.resolves_of_scanned? hscan)
  cases hscan.symm.trans hscan'
  obtain ⟨outputs, -, hfound⟩ := bind_eq_ok_iff.1 hfound
  obtain ⟨kept, hkept, hfound⟩ := bind_eq_ok_iff.1 hfound
  obtain rfl : kept = files := by
    have hresult := Except.ok.inj hfound
    split at hresult
    · cases hresult
    · exact Except.ok.inj hresult
  intro file hfile
  obtain ⟨hnull, hwritten⟩ := h.hasNull_of_scanned? hscan (subset_of_filterM_eq_ok hkept hfile)
  exact ⟨hnull, hwritten target htarget⟩

/-- Files are put together whenever the rule set has a header for them. -/
theorem isOk_concluded {clock : Stamp} (hrules : ∀ set, rules = some set → Bundles set clock)
    (settled : List (SourceFile × Outcome) × Disk) :
    (concluded combine rules target clock settled).isOk = true := by
  cases combine with
  | false => rfl
  | true =>
    cases rules with
    | none => rfl
    | some set =>
      obtain ⟨text, htext⟩ := (hrules set rfl).header
      rw [concluded, if_pos rfl, bundled, htext]
      rfl

/-- A run over a directory that is there gives a summary exactly when it meets no circle. -/
theorem Begins.exists_gives_overDirectory_iff (h : Begins s.view source place)
    (hlog : s.log.file = none)
    (houtput : ∀ path, output = some path → Disk.hasNull path = false)
    (hrules : ∀ set, rules = some set → Bundles set s.clock)
    (hplaced : placed combine rules source output s.view = .ok (target, directories, skipped)) :
    (∃ summary t, Gives (overDirectory combine rules source output) s summary t) ↔
      MeetsNoCircle rules source directories skipped s.view := by
  obtain ⟨htarget, hskipped⟩ :=
    h.hasNull_of_placed houtput (fun set hset => (hrules set hset).noNull) hplaced
  have hreads := reads_survey combine rules source output
  rw [← h.exists_found_iff_meetsNoCircle hskipped]
  constructor
  · rintro ⟨summary, t, hgives⟩
    rw [overDirectory_eq_stages] at hgives
    obtain ⟨⟨target', result⟩, u, hsurvey, -⟩ := gives_bind_iff.1 hgives
    obtain ⟨source', directories', skipped', hexpand, hplaced', hresult⟩ :=
      surveyed_eq_ok_iff.1 (hreads.answer_eq hlog hsurvey)
    cases hexpand.symm.trans h.expanded
    cases hplaced'.symm.trans hplaced
    exact ⟨result, hresult⟩
  · rintro ⟨result, hresult⟩
    obtain ⟨u, hsurvey, -⟩ := hreads.steady hlog
      (surveyed_eq_ok_iff.2 ⟨source, directories, skipped, h.expanded, hplaced, hresult⟩)
    cases result with
    | error message => exact exists_gives_overDirectory_of_error hlog hsurvey
    | ok files =>
      have hnull := h.hasNull_of_found hresult htarget
      exact exists_gives_overDirectory hlog hsurvey (fun file hfile => (hnull file hfile).1)
        (fun _ file hfile => (hnull file hfile).2) (fun _ => htarget) (isOk_concluded hrules _)

/-! ## Requests -/

/-- The rules that a request names when it names none, or those for Laravel under settings that
replace no list. -/
theorem bundles_of_rulesNamed (hrules : settings.rules = [])
    (hframework : request.framework = none ∨ request.framework = some "laravel") (clock : Stamp) :
    ∃ rules, rulesNamed settings request.framework = .ok rules ∧
      ∀ set, rules = some set → Bundles set clock := by
  rcases hframework with hnone | hlaravel
  · rw [hnone]
    exact ⟨none, rfl, nofun⟩
  · have hnamed : rulesNamed settings (some "laravel") = .ok (some Laravel.rules) := by
      have hset : (settings.ruleSet "laravel").run.value = .ok Laravel.rules := by
        rw [Settings.ruleSet, show RuleSet.named "laravel" = .ok Laravel.rules from rfl, hrules]
        rfl
      rw [rulesNamed, hset]
      rfl
    rw [hlaravel]
    refine ⟨_, hnamed, fun set hset => ?_⟩
    cases hset
    exact ⟨by decide, _, rfl⟩

theorem hasNull_of_outputNamed (hhome : Disk.hasNull view.disk.home = false)
    (hoptions : ∀ path, request.output = some path ∨ settings.output = some path →
      Disk.hasNull path = false)
    (h : outputNamed request settings view = .ok output) :
    ∀ path, output = some path → Disk.hasNull path = false := by
  rintro path rfl
  rw [outputNamed.eq_def] at h
  cases hrequested : request.output with
  | none =>
    rw [hrequested] at h
    exact hoptions path (.inr (Except.ok.inj h))
  | some requested =>
    rw [hrequested] at h
    obtain ⟨expanded, hexpand, h⟩ := bind_eq_ok_iff.1 h
    cases h
    have hnull := hoptions requested (.inl hrequested)
    rcases Disk.expandHome_cases (mapError_eq_ok_iff.1 hexpand) with rfl | ⟨rest, rfl, rfl⟩
    · exact hnull
    · exact Disk.hasNull_eq_false fun name hname => (List.mem_append.1 hname).elim
        (Disk.not_mem_of_hasNull hhome)
        fun hrest => Disk.not_mem_of_hasNull hnull (List.mem_cons_of_mem _ hrest)

/-- A session on a disk with a directory that holds one link, and a file `out` beside it. -/
def oneLink (target : String) : Session where
  disk := {
    entries := [(["src"], .directory), (["src", "a.js"], .link target), (["out"], .file [])]
    workingDirectory := []
    home := ⟨.root, ["home"]⟩ }
  clock := ⟨2024, 1, 1, 0, 0, 0⟩
  settings := some { root := ⟨.root, []⟩ }

end Run

end Minifier
