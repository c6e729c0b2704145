import Minifier.Proofs.Disk.Growth
import Minifier.Proofs.Loggers.Lineage

/-!
# Where a record is written

After a configuration the main logger has its rank and its sinks, and its file can be added to
(`Logging.Configured`). Asking for loggers and giving them records keeps that so, until the next
configuration. What becomes of a record then depends on two things: whether the main logger is in
the lineage of its logger, and whether its logger accepts its rank (`Logging.Hears`). If both are
so, it is written once to each sink of the main logger, and else to none of them
(`Logging.Configured.log_of_hears`, `Logging.Configured.log_of_not_hears`). This is what a
configuration is to see to (`Logging.Follows`) just when all that reaches its rank is heard
(`Logging.Configured.follows_iff`).
-/

set_option autoImplicit false

namespace Minifier

namespace Disk

variable {before after : Disk} {path : Path} {place : Location}

/-- A path whose absolute path leads to a file that can be added to, at a place. -/
structure OpensAt (disk : Disk) (path : Path) (place : Location) : Prop where
  writable : place ∉ disk.unwritable
  locate : ∃ content, disk.locate true (disk.absolutePath path) = .ok (.taken place (.file content))

theorem Grows.absolutePath (h : before.Grows after) (path : Path) :
    after.absolutePath path = before.absolutePath path := by
  rw [Disk.absolutePath, Disk.absolutePath, h.workingDirectory]

theorem OpensAt.grows (h : before.OpensAt path place) (hgrows : before.Grows after) :
    after.OpensAt path place where
  writable := by
    rw [hgrows.unwritable]
    exact h.writable
  locate := by
    obtain ⟨content, hlocate⟩ := h.locate
    obtain ⟨content', -, hlocate'⟩ := hgrows.locate_file hlocate
    rw [hgrows.absolutePath]
    exact ⟨content', hlocate'⟩

end Disk

namespace Logbook

variable {disk after : Disk} {path file : Path} {place : Location} {content : Bytes}

/-- A line is added at the place that a path leads to. -/
theorem addLine_of_locate (hlocate : disk.locate true path = .ok (.taken place (.file content)))
    (hwritable : place ∉ disk.unwritable) (line : String) :
    addLine path line disk =
      disk.put place (.file (content ++ Utf8.encode (Text.ofString line))) := by
  rw [addLine, Disk.append_of_locate_file hlocate hwritable]

theorem grows_addLine (path : Path) (line : String) (disk : Disk) :
    disk.Grows (addLine path line disk) := by
  rw [addLine]
  cases happend : disk.append path (Utf8.encode (Text.ofString line)) with
  | ok written => exact (Disk.exists_of_append happend).1
  | error error => exact Disk.Grows.refl disk

/-- A file that could be opened is that of the absolute path, and can be added to. -/
theorem exists_of_openFile (h : openFile path disk = (.ok file, after)) :
    file = after.absolutePath path ∧ ∃ place, after.OpensAt path place := by
  rw [openFile, Disk.ensureDirectory] at h
  cases hparents : Disk.makeDirectories path.parent (path.parent.names.length + 1) disk with
  | mk answer furnished =>
    rw [hparents] at h
    cases answer with
    | error error => cases h
    | ok done =>
      dsimp only at h
      cases happend : furnished.append (furnished.absolutePath path) [] with
      | error error =>
        rw [happend] at h
        cases h
      | ok opened =>
        rw [happend] at h
        obtain ⟨hgrows, place, content, hwritable, hlocate⟩ := Disk.exists_of_append happend
        cases h
        rw [hgrows.absolutePath]
        exact ⟨rfl, place, hwritable, content, by rwa [hgrows.absolutePath]⟩

end Logbook

namespace Logging

variable {s t : Logging} {verbose : Bool} {file : Option Path} {name : String} {notice : Notice}

/-! ## Configured loggers -/

/-- The sinks of the main logger after a configuration. -/
def sinksOf (verbose : Bool) (file : Option Path) : List Sink :=
  ⟨.console, threshold verbose⟩ ::
    (file.map fun path => Sink.mk (.file path) (threshold verbose)).toList

/-- What a configuration sees to, and what holds until the next one. -/
structure Configured (verbose : Bool) (file : Option Path) (s : Logging) : Prop where
  regular : s.loggers.Regular
  known : (s.loggers.known mainLogger).isSome = true
  rank : (s.loggers.logger mainLogger).rank = threshold verbose
  keeps : (s.loggers.logger mainLogger).passesOn = false
  sinks : (s.loggers.logger mainLogger).sinks = sinksOf verbose (file.map s.disk.absolutePath)
  said : ∀ name rank answer, name.toList.head? ≠ some '.' →
    (s.loggers.logger (loggerName name)).said rank = some answer →
      answer = decide (threshold verbose ≤ rank)
  opened : ∀ path, file = some path → ∃ place, s.disk.OpensAt path place

theorem threshold_pos (verbose : Bool) : 0 < threshold verbose := by
  cases verbose with
  | false => decide
  | true => decide

theorem threshold_lt_rootRank (verbose : Bool) : threshold verbose < rootRank := by
  cases verbose with
  | false => decide
  | true => decide

/-- Where no name begins with a dot, a rank is accepted if it reaches that of the configuration. -/
theorem Configured.accepts (h : Configured verbose file s) (hname : name.toList.head? ≠ some '.')
    (rank : Int) :
    s.loggers.accepts (loggerName name) rank = decide (threshold verbose ≤ rank) := by
  rw [Loggers.accepts]
  cases hsaid : (s.loggers.logger (loggerName name)).said rank with
  | some answer => exact h.said name rank answer hname hsaid
  | none =>
    have hmain := Loggers.mainLogger_mem_lineage h.known hname
    have hpos := threshold_pos verbose
    have hset : (s.loggers.logger mainLogger).rank ≠ 0 := by
      rw [h.rank]
      exact Int.ne_of_gt hpos
    simp only [h.regular.rankAlong_of_mem hset hmain, h.rank]
    rw [← Bool.decide_and, decide_eq_decide]
    omega

theorem Configured.of_grows (h : Configured verbose file s) (hloggers : t.loggers = s.loggers)
    (hgrows : s.disk.Grows t.disk) : Configured verbose file t where
  regular := hloggers ▸ h.regular
  known := hloggers ▸ h.known
  rank := hloggers ▸ h.rank
  keeps := hloggers ▸ h.keeps
  sinks := by
    rw [hloggers, h.sinks, funext hgrows.absolutePath]
  said := hloggers ▸ h.said
  opened path hpath := by
    obtain ⟨place, hopens⟩ := h.opened path hpath
    exact ⟨place, hopens.grows hgrows⟩

theorem Configured.ask (h : Configured verbose file s) (name : String) :
    Configured verbose file { s with loggers := s.loggers.ask (loggerName name) } where
  regular := h.regular.ask name
  known := (Loggers.isSome_known_set _ _ _ _).2 (.inr h.known)
  rank := by rw [Loggers.logger_ask, h.rank]
  keeps := by rw [Loggers.logger_ask, h.keeps]
  sinks := by rw [Loggers.logger_ask, h.sinks]
  said other rank answer := by
    rw [Loggers.logger_ask]
    exact h.said other rank answer
  opened := h.opened

/-- What a logger says of a rank is remembered right. -/
theorem Configured.remember (h : Configured verbose file s) (name : String) (rank : Int) :
    Configured verbose file { s with loggers := s.loggers.remember (loggerName name) rank } := by
  obtain ⟨hrank, hkeeps, hsinks⟩ := s.loggers.remember_keeps (loggerName name) rank mainLogger
  refine ⟨h.regular.remember name rank, (Loggers.isSome_known_set _ _ _ _).2 (.inr h.known),
    hrank.trans h.rank, hkeeps.trans h.keeps, hsinks.trans h.sinks, ?_, h.opened⟩
  intro other rank' answer hother hsaid
  rw [Loggers.said_remember] at hsaid
  split at hsaid
  · next hsame =>
    -- Both names stand for one logger, so that `other` has no dot says what was answered.
    obtain ⟨hname, rfl⟩ := hsame
    rw [← Option.some.inj hsaid, ← hname, h.accepts hother]
  · exact h.said other rank' answer hother hsaid

/-! ## Configuring -/

theorem regular_setMain {loggers : Loggers} (h : loggers.Regular) (logger : Logger) :
    (loggers.set mainLogger logger).Regular := by
  rw [← Loggers.loggerName_empty]
  exact h.set fun hne => absurd Loggers.loggerName_empty hne

/-- The loggers after a configuration with a file that was opened, if there is one. -/
def arranged (loggers : Loggers) (verbose : Bool) (file : Option Path) : Loggers :=
  let ranked := (loggers.ask mainLogger).setRank mainLogger (threshold verbose)
  let shown := (ranked.isolate mainLogger).attach mainLogger .console
  match file with
  | none => shown
  | some path => shown.attach mainLogger (.file path)

theorem regular_arranged {loggers : Loggers} (h : loggers.Regular) (verbose : Bool)
    (file : Option Path) : (arranged loggers verbose file).Regular := by
  have hranked : ((loggers.ask mainLogger).setRank mainLogger (threshold verbose)).Regular :=
    (regular_setMain (regular_setMain h _) _).forget
  cases file with
  | none => exact regular_setMain (regular_setMain hranked _) _
  | some path => exact regular_setMain (regular_setMain (regular_setMain hranked _) _) _

theorem logger_arranged (loggers : Loggers) (verbose : Bool) (file : Option Path) :
    (arranged loggers verbose file).logger mainLogger =
      ⟨threshold verbose, false, sinksOf verbose file, fun _ => none⟩ := by
  cases file with
  | none => simp [arranged, Loggers.attach, Loggers.isolate, Loggers.setRank, sinksOf]
  | some path => simp [arranged, Loggers.attach, Loggers.isolate, Loggers.setRank, sinksOf]

theorem known_arranged (loggers : Loggers) (verbose : Bool) (file : Option Path) :
    ((arranged loggers verbose file).known mainLogger).isSome = true := by
  cases file with
  | none => exact (Loggers.isSome_known_set _ _ _ _).2 (.inl rfl)
  | some path => exact (Loggers.isSome_known_set _ _ _ _).2 (.inl rfl)

/-- After a configuration no logger remembers to have said anything. -/
theorem said_arranged (loggers : Loggers) (verbose : Bool) (file : Option Path) (name : String)
    (rank : Int) : ((arranged loggers verbose file).logger name).said rank = none := by
  by_cases hname : name = mainLogger
  · rw [hname, logger_arranged]
  · cases file with
    | none =>
      simp [arranged, Loggers.attach, Loggers.isolate, Loggers.setRank,
        Loggers.logger_set_of_ne hname]
    | some path =>
      simp [arranged, Loggers.attach, Loggers.isolate, Loggers.setRank,
        Loggers.logger_set_of_ne hname]

theorem configure_of_opened {path opened : Path} {disk : Disk}
    (h : Logbook.openFile path s.disk = (.ok opened, disk)) :
    s.configure verbose (some path) =
      ({ s with disk, loggers := arranged s.loggers verbose (some opened) }, .ok ()) := by
  rw [configure.eq_def]
  dsimp only
  rw [h]
  rfl

theorem configure_of_refused {path : Path} {error : DiskError} {disk : Disk}
    (h : Logbook.openFile path s.disk = (.error error, disk)) :
    s.configure verbose (some path) =
      ({ s with disk, loggers := arranged s.loggers verbose none }, .error error) := by
  rw [configure.eq_def]
  dsimp only
  rw [h]
  rfl

/-- What is done by a configuration that can be made. -/
theorem configure_eq_ok (h : s.configure verbose file = (t, .ok ())) :
    t.loggers = arranged s.loggers verbose (file.map t.disk.absolutePath) ∧
      ∀ path, file = some path → ∃ place, t.disk.OpensAt path place := by
  cases file with
  | none =>
    cases h
    exact ⟨rfl, by rintro _ ⟨⟩⟩
  | some path =>
    cases hopen : Logbook.openFile path s.disk with
    | mk answer disk =>
      cases answer with
      | error error =>
        rw [configure_of_refused hopen] at h
        cases h
      | ok opened =>
        obtain ⟨hpath, hopens⟩ := Logbook.exists_of_openFile hopen
        rw [configure_of_opened hopen] at h
        cases h
        refine ⟨?_, ?_⟩
        · rw [hpath]
          rfl
        · rintro _ ⟨⟩
          exact hopens

/-- A configuration that could be made is in force. -/
theorem configured_of_configure (hregular : s.loggers.Regular)
    (h : s.configure verbose file = (t, .ok ())) : Configured verbose file t := by
  obtain ⟨hloggers, hopened⟩ := configure_eq_ok h
  have hlogger := logger_arranged s.loggers verbose (file.map t.disk.absolutePath)
  rw [← hloggers] at hlogger
  exact {
    regular := hloggers ▸ regular_arranged hregular verbose _
    known := hloggers ▸ known_arranged s.loggers verbose _
    rank := congrArg Logger.rank hlogger
    keeps := congrArg Logger.passesOn hlogger
    sinks := congrArg Logger.sinks hlogger
    said := fun name rank answer _ hanswer => by
      rw [hloggers, said_arranged] at hanswer
      cases hanswer
    opened := hopened }

/-! ## One record -/

/-- Whether the main logger is in the lineage of the logger of a record, and that accepts it. -/
def Hears (s : Logging) (notice : Notice) : Prop :=
  let loggers := s.loggers.ask notice.logger
  mainLogger ∈ loggers.lineage notice.logger ∧
    loggers.accepts notice.logger notice.level.rank = true

/-- What is left when the logger of a record was asked for it and remembers what it said. -/
def told (s : Logging) (notice : Notice) : Logging :=
  { s with
    loggers := (s.loggers.ask notice.logger).remember notice.logger notice.level.rank }

theorem log_eq (s : Logging) (notice : Notice) :
    s.log notice =
      if (s.loggers.ask notice.logger).accepts notice.logger notice.level.rank then
        (s.told notice).dispatch notice
      else s.told notice :=
  rfl

theorem lineage_told (s : Logging) (notice : Notice) :
    (s.told notice).loggers.lineage notice.logger =
      (s.loggers.ask notice.logger).lineage notice.logger := by
  have hknown : ∀ name, ((s.told notice).loggers.known name).isSome =
      ((s.loggers.ask notice.logger).known name).isSome := by
    intro name
    rw [Bool.eq_iff_iff, told, Loggers.remember, Loggers.isSome_known_set, Loggers.ask,
      Loggers.isSome_known_set]
    tauto
  rw [Loggers.lineage, Loggers.lineage, Loggers.elders_congr hknown]

theorem Configured.told (h : Configured verbose file s)
    (hlogger : notice.logger = loggerName name) :
    Configured verbose file (s.told notice) := by
  rw [Logging.told, hlogger]
  exact (h.ask name).remember name notice.level.rank

/-- Writing changes no logger, and only adds to the disk. -/
theorem write_keeps (s : Logging) (notice : Notice) (sink : Sink) :
    (s.write notice sink).loggers = s.loggers ∧ s.disk.Grows (s.write notice sink).disk := by
  rw [write]
  split
  · exact ⟨rfl, Disk.Grows.refl _⟩
  · cases sink.target with
    | console => exact ⟨rfl, Disk.Grows.refl _⟩
    | file path => exact ⟨rfl, Logbook.grows_addLine _ _ _⟩

theorem foldl_write_keeps (notice : Notice) (sinks : List Sink) (s : Logging) :
    (sinks.foldl (fun s sink => s.write notice sink) s).loggers = s.loggers ∧
      s.disk.Grows (sinks.foldl (fun s sink => s.write notice sink) s).disk := by
  induction sinks generalizing s with
  | nil => exact ⟨rfl, Disk.Grows.refl _⟩
  | cons sink sinks ih =>
    obtain ⟨hloggers, hgrows⟩ := s.write_keeps notice sink
    obtain ⟨hloggers', hgrows'⟩ := ih (s.write notice sink)
    exact ⟨hloggers'.trans hloggers, hgrows.trans hgrows'⟩

theorem dispatch_keeps (s : Logging) (notice : Notice) :
    (s.dispatch notice).loggers = s.loggers ∧ s.disk.Grows (s.dispatch notice).disk := by
  rw [dispatch]
  split
  · split
    · exact ⟨rfl, Disk.Grows.refl _⟩
    · exact ⟨rfl, Disk.Grows.refl _⟩
  · exact foldl_write_keeps notice _ s

theorem log_keeps (s : Logging) (notice : Notice) :
    (s.log notice).loggers = (s.told notice).loggers ∧ s.disk.Grows (s.log notice).disk := by
  rw [log_eq]
  split
  · exact dispatch_keeps (s.told notice) notice
  · exact ⟨rfl, Disk.Grows.refl _⟩

theorem Configured.log (h : Configured verbose file s) (hlogger : notice.logger = loggerName name) :
    Configured verbose file (s.log notice) := by
  obtain ⟨hloggers, hgrows⟩ := s.log_keeps notice
  exact (h.told hlogger).of_grows hloggers hgrows

/-- The disk with a line added to the file of a configuration. -/
def added (disk : Disk) (file : Option Path) (line : String) : Disk :=
  match file with
  | none => disk
  | some path => Logbook.addLine (disk.absolutePath path) line disk

/-- A record that gets to the main logger is written once to each of its sinks. -/
theorem Configured.dispatch_of_mem (h : Configured verbose file s)
    (hmain : mainLogger ∈ s.loggers.lineage notice.logger)
    (hreach : threshold verbose ≤ notice.level.rank) :
    s.dispatch notice =
      { s with
        shown := s.shown ++ notice.shownLine
        disk := added s.disk file notice.fileLine } := by
  have hsinks := h.regular.sinksAlong_of_mem h.keeps hmain
  rw [h.sinks] at hsinks
  have hle : ¬ notice.level.rank < threshold verbose := by omega
  cases file with
  | none => simp [dispatch, hsinks, sinksOf, write, hle, added]
  | some path => simp [dispatch, hsinks, sinksOf, write, hle, added]

theorem Configured.dispatch_of_below (h : Configured verbose file s)
    (hbelow : notice.level.rank < threshold verbose) : s.dispatch notice = s := by
  by_cases hmain : mainLogger ∈ s.loggers.lineage notice.logger
  · have hsinks := h.regular.sinksAlong_of_mem h.keeps hmain
    rw [h.sinks] at hsinks
    cases file with
    | none => simp [dispatch, hsinks, sinksOf, write, hbelow]
    | some path => simp [dispatch, hsinks, sinksOf, write, hbelow]
  · have hroot := threshold_lt_rootRank verbose
    have hlow : ¬ rootRank ≤ notice.level.rank := by omega
    simp [dispatch, h.regular.sinksAlong_of_notMem hmain, hlow]

/-- A record that does not get to the main logger is at most shown without its level. -/
theorem Configured.dispatch_of_notMem (h : Configured verbose file s)
    (hmain : mainLogger ∉ s.loggers.lineage notice.logger) :
    s.dispatch notice = s ∨ rootRank ≤ notice.level.rank ∧
      s.dispatch notice = { s with shown := s.shown ++ notice.bareLine } := by
  simp only [dispatch, h.regular.sinksAlong_of_notMem hmain]
  split
  · next hbare => exact .inr ⟨hbare.2, rfl⟩
  · exact .inl rfl

theorem Configured.log_of_hears (h : Configured verbose file s)
    (hlogger : notice.logger = loggerName name) (hhears : s.Hears notice)
    (hreach : threshold verbose ≤ notice.level.rank) :
    (s.log notice).shown = s.shown ++ notice.shownLine ∧
      (s.log notice).disk = added s.disk file notice.fileLine := by
  have hmain : mainLogger ∈ (s.told notice).loggers.lineage notice.logger := by
    rw [lineage_told]
    exact hhears.1
  rw [log_eq, if_pos hhears.2, (h.told hlogger).dispatch_of_mem hmain hreach]
  exact ⟨rfl, rfl⟩

theorem Configured.log_of_below (h : Configured verbose file s)
    (hlogger : notice.logger = loggerName name)
    (hbelow : notice.level.rank < threshold verbose) : s.log notice = s.told notice := by
  rw [log_eq, (h.told hlogger).dispatch_of_below hbelow, ite_self]

theorem Configured.log_of_not_hears (h : Configured verbose file s)
    (hlogger : notice.logger = loggerName name) (hhears : ¬ s.Hears notice) :
    (s.log notice).shown = s.shown ∨ rootRank ≤ notice.level.rank ∧
      (s.log notice).shown = s.shown ++ notice.bareLine := by
  rw [log_eq]
  split
  · next haccepts =>
    have hmain : mainLogger ∉ (s.told notice).loggers.lineage notice.logger := by
      rw [lineage_told]
      exact fun hmain => hhears ⟨hmain, haccepts⟩
    rcases (h.told hlogger).dispatch_of_notMem hmain with heq | ⟨hwarning, heq⟩
    · left
      rw [heq]
      rfl
    · refine .inr ⟨hwarning, ?_⟩
      rw [heq]
      rfl
  · exact .inl rfl

/-! ## Records after a configuration -/

/-- A record is treated as a configuration has it: from its threshold on the record is shown once
and added once to its file, if it names one, and nothing else is written. The file is the one that
the absolute path of what it names leads to. -/
structure Follows (verbose : Bool) (file : Option Path) (notice : Notice)
    (before after : Logging) : Prop where
  shown : after.shown = before.shown ++
    if threshold verbose ≤ notice.level.rank then notice.shownLine else ""
  added : ∀ path, file = some path → ∃ place content,
    before.disk.locate true (before.disk.absolutePath path) =
        .ok (.taken place (.file content)) ∧
      after.disk.contentAt? place = some (content ++
        if threshold verbose ≤ notice.level.rank then
          Utf8.encode (Text.ofString notice.fileLine)
        else [])
  others : ∀ place,
    (∀ path content, file = some path →
      before.disk.locate true (before.disk.absolutePath path) ≠
        .ok (.taken place (.file content))) →
    after.disk.contentAt? place = before.disk.contentAt? place

theorem Configured.follows_of_hears (h : Configured verbose file s)
    (hlogger : notice.logger = loggerName name) (hhears : s.Hears notice)
    (hreach : threshold verbose ≤ notice.level.rank) :
    Follows verbose file notice s (s.log notice) := by
  obtain ⟨hshown, hdisk⟩ := h.log_of_hears hlogger hhears hreach
  cases file with
  | none =>
    refine ⟨by rw [hshown, if_pos hreach], by rintro _ ⟨⟩, fun place _ => ?_⟩
    rw [hdisk]
    rfl
  | some path =>
    obtain ⟨place, hwritable, content, hlocate⟩ := h.opened path rfl
    have hplace := Disk.ne_nil_of_entryAt?_file (Disk.entryAt?_of_locate_file hlocate)
    rw [Logging.added, Logbook.addLine_of_locate hlocate hwritable] at hdisk
    refine ⟨by rw [hshown, if_pos hreach], ?_, ?_⟩
    · rintro _ ⟨⟩
      refine ⟨place, content, hlocate, ?_⟩
      rw [hdisk, Disk.contentAt?_put_file s.disk _ hplace, if_pos rfl, if_pos hreach]
    · intro other hother
      have hne : other ≠ place := by
        rintro rfl
        exact hother path content rfl hlocate
      rw [hdisk, Disk.contentAt?_put_file s.disk _ hplace, if_neg hne]

theorem Configured.follows_of_below (h : Configured verbose file s)
    (hlogger : notice.logger = loggerName name)
    (hbelow : notice.level.rank < threshold verbose) :
    Follows verbose file notice s (s.log notice) := by
  have hreach : ¬ threshold verbose ≤ notice.level.rank := by omega
  rw [h.log_of_below hlogger hbelow]
  refine ⟨by rw [if_neg hreach, String.append_empty]; rfl, ?_, fun _ _ => rfl⟩
  intro path hpath
  obtain ⟨place, -, content, hlocate⟩ := h.opened path hpath
  refine ⟨place, content, hlocate, ?_⟩
  rw [if_neg hreach, List.append_nil]
  exact Disk.contentAt?_eq_some_iff.2 (Disk.entryAt?_of_locate_file hlocate)

/-- A line with the level of a record is neither empty nor the line without it. -/
theorem shownLine_ne (notice : Notice) :
    notice.shownLine ≠ "" ∧ notice.shownLine ≠ notice.bareLine := by
  have hlength : notice.bareLine.length < notice.shownLine.length := by
    have hbracket : "[".length = 1 := by rfl
    simp only [Notice.shownLine, Logbook.consoleLine, Notice.bareLine, String.length_append,
      hbracket]
    omega
  refine ⟨?_, ?_⟩
  · intro h
    rw [h] at hlength
    exact absurd hlength (Nat.not_lt_zero _)
  · intro h
    rw [h] at hlength
    exact absurd hlength (Nat.lt_irrefl _)

/-- A record is treated as the configuration has it just when it is below its threshold or heard. -/
theorem Configured.follows_iff (h : Configured verbose file s)
    (hlogger : notice.logger = loggerName name) :
    Follows verbose file notice s (s.log notice) ↔
      (threshold verbose ≤ notice.level.rank → s.Hears notice) := by
  constructor
  · intro hfollows hreach
    by_contra hhears
    have hshown := hfollows.shown
    rw [if_pos hreach] at hshown
    obtain ⟨hempty, hbare⟩ := shownLine_ne notice
    rcases h.log_of_not_hears hlogger hhears with heq | ⟨-, heq⟩
    · rw [heq] at hshown
      exact hempty (String.append_eq_left_iff.1 hshown.symm)
    · rw [heq] at hshown
      exact hbare ((String.append_right_inj _).1 hshown.symm)
  · intro hhears
    by_cases hreach : threshold verbose ≤ notice.level.rank
    · exact h.follows_of_hears hlogger (hhears hreach) hreach
    · exact h.follows_of_below hlogger (by omega)

end Logging

end Minifier
