import Minifier.Proofs.Loggers.Records

/-!
# Configurations one after another

What a history leaves in force is its latest configuration (`Logging.configured_of_handleAll`).
After it, a logger whose own name does not begin with a dot hears all that reaches its threshold,
and one whose own name begins with one dot hears nothing of it
(`Logging.records_follow_latest_configuration_iff`). So from one configuration to the next, the
records of loggers with names that do not begin with a dot are written in turn, each one once
(`Logging.Configured.writes_of_forall_isPlain`).

The program itself uses no name that begins with a dot. For names without one, the loggers do what
the logbook of a session does (`Logging.mirrors_configure`, `Logging.Mirrors.log`).
-/

set_option autoImplicit false

namespace Minifier

namespace Logging

variable {s t : Logging} {verbose : Bool} {file : Option Path} {name : String} {notice : Notice}
  {event : Event} {events earlier later : List Event} {disk : Disk} {lastResort : Bool}

/-! ## Histories -/

/-- A history that could be gone through could be gone through up to each of its events. -/
theorem exists_of_handleAll_append (earlier : List Event)
    (h : s.handleAll (earlier ++ event :: later) = (t, .ok ())) :
    ∃ before after, s.handleAll earlier = (before, .ok ()) ∧
      before.handle event = (after, .ok ()) ∧ after.handleAll later = (t, .ok ()) := by
  induction earlier generalizing s with
  | nil =>
    rw [List.nil_append, handleAll] at h
    cases hstep : s.handle event with
    | mk next answer =>
      rw [hstep] at h
      cases answer with
      | ok done => exact ⟨s, next, rfl, hstep, h⟩
      | error error => cases h
  | cons first earlier ih =>
    rw [List.cons_append, handleAll] at h
    cases hstep : s.handle first with
    | mk next answer =>
      rw [hstep] at h
      cases answer with
      | ok done =>
        obtain ⟨before, after, hbefore, hevent, hlater⟩ := ih h
        refine ⟨before, after, ?_, hevent, hlater⟩
        rw [handleAll, hstep]
        exact hbefore
      | error error => cases h

theorem regular_handle (hregular : s.loggers.Regular) (h : s.handle event = (t, .ok ())) :
    t.loggers.Regular := by
  cases event with
  | ask name =>
    cases h
    exact hregular.ask name
  | configure verbose file => exact (configured_of_configure hregular h).regular
  | log name level message moment =>
    cases h
    rw [(log_keeps _ _).1]
    exact (hregular.ask name).remember name level.rank

theorem regular_handleAll (hregular : s.loggers.Regular)
    (h : s.handleAll events = (t, .ok ())) : t.loggers.Regular := by
  induction events generalizing s with
  | nil =>
    cases h
    exact hregular
  | cons event events ih =>
    obtain ⟨before, after, hbefore, hevent, hlater⟩ :=
      exists_of_handleAll_append [] h
    cases hbefore
    exact ih (regular_handle hregular hevent) hlater

/-- A configuration stays in force as long as no other one is made. -/
theorem Configured.handle (h : Configured verbose file s)
    (hevent : ∀ verbose file, event ≠ .configure verbose file)
    (hstep : s.handle event = (t, .ok ())) : Configured verbose file t := by
  cases event with
  | ask name =>
    cases hstep
    exact h.ask name
  | configure verbose file => exact absurd rfl (hevent verbose file)
  | log name level message moment =>
    cases hstep
    exact h.log rfl

theorem Configured.handleAll (h : Configured verbose file s)
    (hlater : ∀ verbose file, Event.configure verbose file ∉ later)
    (hsteps : s.handleAll later = (t, .ok ())) : Configured verbose file t := by
  induction later generalizing s with
  | nil =>
    cases hsteps
    exact h
  | cons event later ih =>
    obtain ⟨before, after, hbefore, hevent, hrest⟩ :=
      exists_of_handleAll_append [] hsteps
    cases hbefore
    refine ih (h.handle ?_ hevent) (fun verbose file hmem => ?_) hrest
    · rintro verbose file rfl
      exact hlater verbose file List.mem_cons_self
    · exact hlater verbose file (List.mem_cons_of_mem _ hmem)

/-- After any history the latest configuration is in force. -/
theorem configured_of_handleAll
    (h : (Logging.mk disk { lastResort } "").handleAll
      (earlier ++ .configure verbose file :: later) = (s, .ok ()))
    (hlater : ∀ verbose file, Event.configure verbose file ∉ later) :
    Configured verbose file s := by
  obtain ⟨before, after, hbefore, hconfigure, hrest⟩ := exists_of_handleAll_append earlier h
  have hregular := regular_handleAll (Loggers.regular_fresh lastResort) hbefore
  exact (configured_of_configure hregular hconfigure).handleAll hlater hrest

/-! ## Who is heard -/

theorem Configured.hears_of_no_dot (h : Configured verbose file s)
    (hlogger : notice.logger = loggerName name) (hname : name.toList.head? ≠ some '.')
    (hreach : threshold verbose ≤ notice.level.rank) : s.Hears notice := by
  have hasked := h.ask name
  rw [Hears, hlogger]
  refine ⟨Loggers.mainLogger_mem_lineage hasked.known hname, ?_⟩
  rw [hasked.accepts hname, decide_eq_true hreach]

theorem Configured.not_hears_of_one_dot (h : Configured verbose file s)
    (hlogger : notice.logger = loggerName name) {rest : List Char}
    (hname : name.toList = '.' :: rest) (hrest : rest.head? ≠ some '.') : ¬ s.Hears notice := by
  rw [Hears, hlogger]
  exact fun hhears => (h.ask name).regular.mainLogger_notMem_lineage hname hrest hhears.1

/-- After any history a record is treated as the latest configuration has it just when it is below
its threshold or heard. From the threshold on, loggers with names that do not begin with a dot are
heard, and those with names that begin with one dot are not. -/
theorem records_follow_latest_configuration_iff
    (h : (Logging.mk disk { lastResort } "").handleAll
      (earlier ++ .configure verbose file :: later) = (s, .ok ()))
    (hlater : ∀ verbose file, Event.configure verbose file ∉ later)
    (name : String) (level : Level) (message : String) (moment : Instant) :
    let notice : Notice := ⟨level, loggerName name, message, moment⟩
    ∃ after, s.handle (.log name level message moment) = (after, .ok ()) ∧
      (Follows verbose file notice s after ↔
        (threshold verbose ≤ level.rank → s.Hears notice)) ∧
      (name.toList.head? ≠ some '.' → Follows verbose file notice s after) ∧
      ∀ rest, name.toList = '.' :: rest → rest.head? ≠ some '.' →
        threshold verbose ≤ level.rank → ¬ Follows verbose file notice s after := by
  intro notice
  have hconfigured := configured_of_handleAll h hlater
  have hlogger : notice.logger = loggerName name := rfl
  have hiff := hconfigured.follows_iff hlogger
  refine ⟨s.log notice, rfl, hiff, fun hname => ?_, fun rest hname hrest hreach hfollows => ?_⟩
  · exact hiff.2 (hconfigured.hears_of_no_dot hlogger hname)
  · exact hconfigured.not_hears_of_one_dot hlogger hname hrest (hiff.1 hfollows hreach)

/-- A message between a configuration and the next, where both name the same file. -/
theorem message_follows_second_configuration :
    let start : Logging := { disk := ⟨[], [], ⟨.root, []⟩, [], []⟩ }
    let file : Option Path := some ⟨.working, ["a.log"]⟩
    let moment : Instant := ⟨⟨2026, 1, 1, 0, 0, 0⟩, 0⟩
    let earlier : List Event :=
      [.configure true file, .log "a" Severity.debug.level "first" moment]
    let ended := start.handleAll (earlier ++ .configure false file :: [.ask "b"])
    ended.2 = .ok () ∧ (∀ verbose file, Event.configure verbose file ∉ [Event.ask "b"]) ∧
      Follows false file ⟨Severity.info.level, loggerName "b", "second", moment⟩ ended.1
        (ended.1.handle (.log "b" Severity.info.level "second" moment)).1 := by
  have hdone : (Logging.handleAll { disk := ⟨[], [], ⟨.root, []⟩, [], []⟩ }
      ([.configure true (some ⟨.working, ["a.log"]⟩),
        .log "a" Severity.debug.level "first" ⟨⟨2026, 1, 1, 0, 0, 0⟩, 0⟩] ++
          .configure false (some ⟨.working, ["a.log"]⟩) :: [.ask "b"])).2 = .ok () := by
    rfl
  have hlater : ∀ verbose file, Event.configure verbose file ∉ [Event.ask "b"] := by simp
  intro start file moment earlier ended
  obtain ⟨after, hstep, -, hfollows, -⟩ := records_follow_latest_configuration_iff
    (Prod.ext rfl hdone : ended = (ended.1, .ok ())) hlater "b" Severity.info.level "second" moment
  refine ⟨hdone, hlater, ?_⟩
  rw [hstep]
  exact hfollows (by decide)

/-- A message of a logger whose name begins with a dot is lost, although it reaches the
threshold. -/
theorem message_of_dotted_logger_is_lost :
    let start : Logging := { disk := ⟨[], [], ⟨.root, []⟩, [], []⟩ }
    let moment : Instant := ⟨⟨2026, 1, 1, 0, 0, 0⟩, 0⟩
    let notice : Notice := ⟨Severity.info.level, loggerName ".b", "hello", moment⟩
    ∃ s after, start.handleAll [.configure false none] = (s, .ok ()) ∧
      s.handle (.log ".b" Severity.info.level "hello" moment) = (after, .ok ()) ∧
      threshold false ≤ notice.level.rank ∧ after.shown = "" ∧
      ¬ Follows false none notice s after := by
  intro start moment notice
  have hlogger : notice.logger = loggerName ".b" := rfl
  have hreach : threshold false ≤ notice.level.rank := by decide
  have hwarning : ¬ rootRank ≤ notice.level.rank := by decide
  have hconfigured : Configured false none (start.configure false none).1 :=
    configured_of_configure (Loggers.regular_fresh true) rfl
  have hhears := hconfigured.not_hears_of_one_dot hlogger
    (show ".b".toList = '.' :: ['b'] from rfl) (by decide)
  refine ⟨_, _, rfl, rfl, hreach, ?_, ?_⟩
  · exact (hconfigured.log_of_not_hears hlogger hhears).resolve_right fun hbare => hwarning hbare.1
  · exact fun hfollows => hhears ((hconfigured.follows_iff hlogger).1 hfollows hreach)

/-! ## Runs of records -/

/-- An event that is neither a configuration nor a record of a logger whose name begins with a
dot. -/
def Event.IsPlain : Event → Prop
  | .ask _ => True
  | .configure _ _ => False
  | .log name _ _ _ => name.toList.head? ≠ some '.'

/-- The record of an event that reaches the threshold of a configuration, if there is one. -/
def reaching (verbose : Bool) : Event → List Notice
  | .log name level message moment =>
    if threshold verbose ≤ level.rank then [⟨level, loggerName name, message, moment⟩] else []
  | _ => []

/-- Over the way from one state to another, some records were shown in turn and added in turn to the
file of a configuration. -/
structure Writes (file : Option Path) (notices : List Notice) (before after : Logging) : Prop where
  shown : after.shown = before.shown ++ String.join (notices.map Notice.shownLine)
  added : ∀ path place content, file = some path →
    before.disk.locate true (before.disk.absolutePath path) =
        .ok (.taken place (.file content)) →
      after.disk.locate true (after.disk.absolutePath path) =
        .ok (.taken place (.file (content ++ notices.flatMap fun notice =>
          Utf8.encode (Text.ofString notice.fileLine))))

theorem writes_nil (hshown : t.shown = s.shown) (hdisk : t.disk = s.disk) :
    Writes file [] s t where
  shown := by
    rw [hshown, List.map_nil, String.join_nil, String.append_empty]
  added path place content _ hlocate := by
    rw [hdisk, List.flatMap_nil, List.append_nil]
    exact hlocate

theorem Writes.trans {a b c : Logging} {first second : List Notice} (hab : Writes file first a b)
    (hbc : Writes file second b c) : Writes file (first ++ second) a c where
  shown := by
    rw [hbc.shown, hab.shown, List.map_append, String.join_append, String.append_assoc]
  added path place content hpath hlocate := by
    rw [List.flatMap_append, ← List.append_assoc]
    exact hbc.added path place _ hpath (hab.added path place content hpath hlocate)

/-- What a record does that is treated as the configuration has it. -/
theorem writes_of_follows (hgrows : s.disk.Grows t.disk) (h : Follows verbose file notice s t) :
    Writes file (if threshold verbose ≤ notice.level.rank then [notice] else []) s t where
  shown := by
    rw [h.shown]
    split
    · rfl
    · rfl
  added path place content hpath hlocate := by
    obtain ⟨place', content', hlocate', hcontent⟩ := h.added path hpath
    rw [hlocate] at hlocate'
    cases hlocate'
    obtain ⟨found, hfound, hafter⟩ := hgrows.locate_file hlocate
    rw [hgrows.absolutePath, hafter]
    rw [hfound] at hcontent
    cases hcontent
    split
    · simp
    · simp

theorem Configured.writes_of_isPlain (h : Configured verbose file s) (hevent : event.IsPlain) :
    ∃ t, s.handle event = (t, .ok ()) ∧ Configured verbose file t ∧
      Writes file (reaching verbose event) s t := by
  cases event with
  | ask name => exact ⟨_, rfl, h.ask name, writes_nil rfl rfl⟩
  | configure verbose file => exact hevent.elim
  | log name level message moment =>
    have hlogger : (Notice.mk level (loggerName name) message moment).logger = loggerName name :=
      rfl
    have hfollows := (h.follows_iff hlogger).2 (h.hears_of_no_dot hlogger hevent)
    exact ⟨_, rfl, h.log hlogger, writes_of_follows (s.log_keeps _).2 hfollows⟩

/-- After a configuration all records that reach its threshold are written, each one once and in
their order, as long as there is no other configuration and no name begins with a dot. -/
theorem Configured.writes_of_forall_isPlain (h : Configured verbose file s)
    (hevents : ∀ event ∈ events, event.IsPlain) :
    ∃ t, s.handleAll events = (t, .ok ()) ∧ Configured verbose file t ∧
      Writes file (events.flatMap (reaching verbose)) s t := by
  induction events generalizing s with
  | nil => exact ⟨s, rfl, h, writes_nil rfl rfl⟩
  | cons event events ih =>
    obtain ⟨hevent, hevents⟩ := List.forall_mem_cons.1 hevents
    obtain ⟨next, hstep, hnext, hwrites⟩ := h.writes_of_isPlain hevent
    obtain ⟨t, hrun, ht, hwrites'⟩ := ih hnext hevents
    refine ⟨t, ?_, ht, ?_⟩
    · rw [Logging.handleAll, hstep]
      exact hrun
    · rw [List.flatMap_cons]
      exact hwrites.trans hwrites'

/-! ## The logbooks of sessions -/

/-- A logbook with the threshold, the file and the text shown that loggers have. -/
structure Mirrors (s : Logging) (book : Logbook) : Prop where
  shown : book.shown = s.shown
  configured : ∃ verbose file, Configured verbose file s ∧
    book.threshold = some (if verbose then .debug else .info) ∧
      book.file = file.map s.disk.absolutePath

theorem configure_logbook_of_opened {path opened : Path} {disk after : Disk}
    (h : Logbook.openFile path disk = (.ok opened, after)) (book : Logbook) (verbose : Bool) :
    book.configure verbose (some path) disk =
      (.ok (), { book with
        threshold := some (if verbose then .debug else .info), file := some opened }, after) := by
  simp only [Logbook.configure, h]

theorem configure_logbook_of_refused {path : Path} {error : DiskError} {disk after : Disk}
    (h : Logbook.openFile path disk = (.error error, after)) (book : Logbook) (verbose : Bool) :
    book.configure verbose (some path) disk =
      (.error error, { book with
        threshold := some (if verbose then .debug else .info), file := none }, after) := by
  simp only [Logbook.configure, h]

/-- A logbook and loggers are configured alike: both can be or both cannot, with the same effect on
the disk. -/
theorem mirrors_configure {book : Logbook} (hregular : s.loggers.Regular)
    (hshown : book.shown = s.shown) (verbose : Bool) (file : Option Path) :
    (book.configure verbose file s.disk).1 = (s.configure verbose file).2 ∧
      (book.configure verbose file s.disk).2.2 = (s.configure verbose file).1.disk ∧
      ((s.configure verbose file).2 = .ok () →
        Mirrors (s.configure verbose file).1 (book.configure verbose file s.disk).2.1) := by
  have hconfigured : (s.configure verbose file).2 = .ok () →
      Configured verbose file (s.configure verbose file).1 :=
    fun hdone => configured_of_configure hregular (Prod.ext rfl hdone)
  cases file with
  | none =>
    exact ⟨rfl, rfl, fun hdone => ⟨hshown, verbose, none, hconfigured hdone, rfl, rfl⟩⟩
  | some path =>
    -- the file is opened on both sides on the same disk, so both are refused or neither
    cases hopen : Logbook.openFile path s.disk with
    | mk answer disk =>
      cases answer with
      | error error =>
        rw [configure_of_refused hopen, configure_logbook_of_refused hopen]
        exact ⟨rfl, rfl, fun hdone => nomatch hdone⟩
      | ok opened =>
        obtain ⟨hpath, -⟩ := Logbook.exists_of_openFile hopen
        rw [configure_of_opened hopen] at hconfigured ⊢
        rw [configure_logbook_of_opened hopen]
        refine ⟨rfl, rfl, fun hdone => ⟨hshown, verbose, some path, hconfigured hdone, rfl, ?_⟩⟩
        rw [hpath]
        rfl

theorem rankName_rank (severity : Severity) : rankName severity.rank = severity.name := by
  cases severity with
  | debug => rfl
  | info => rfl
  | warning => rfl
  | error => rfl

theorem text_instant (stamp : Stamp) : Instant.text ⟨stamp, 0⟩ = stamp.text ++ ",000" := by
  have hzero : "," ++ String.ofList (paddedDigits 3 ((0 : Fin 1000) : Nat)) = ",000" := by rfl
  rw [Instant.text, String.append_assoc, hzero]

theorem shownLine_notice (severity : Severity) (logger message : String) (moment : Instant) :
    (Notice.mk severity.level logger message moment).shownLine =
      Logbook.shownLine ⟨severity, logger, message⟩ := by
  rw [Notice.shownLine, Logbook.shownLine, ← rankName_rank]
  rfl

theorem fileLine_notice (severity : Severity) (logger message : String) (stamp : Stamp) :
    (Notice.mk severity.level logger message ⟨stamp, 0⟩).fileLine =
      Logbook.fileLine stamp ⟨severity, logger, message⟩ := by
  rw [Notice.fileLine, Logbook.fileLine, text_instant, ← rankName_rank]
  rfl

/-- Of a logger whose name does not begin with a dot, a logbook and loggers treat records alike. -/
theorem Mirrors.log {book : Logbook} (h : Mirrors s book) (hname : name.toList.head? ≠ some '.')
    (severity : Severity) (message : String) (stamp : Stamp) :
    (book.enter stamp ⟨severity, loggerName name, message⟩ s.disk).2 =
        (s.log ⟨severity.level, loggerName name, message, ⟨stamp, 0⟩⟩).disk ∧
      Mirrors (s.log ⟨severity.level, loggerName name, message, ⟨stamp, 0⟩⟩)
        (book.enter stamp ⟨severity, loggerName name, message⟩ s.disk).1 := by
  obtain ⟨hshown, verbose, file, hconfigured, hthreshold, hfile⟩ := h
  have hlogger : (Notice.mk severity.level (loggerName name) message ⟨stamp, 0⟩).logger =
      loggerName name := rfl
  have hconfigured' := hconfigured.log hlogger
  have hpaths := funext (log_keeps s
    ⟨severity.level, loggerName name, message, ⟨stamp, 0⟩⟩).2.absolutePath
  have haccepts : book.accepts ⟨severity, loggerName name, message⟩ =
      decide (threshold verbose ≤ severity.rank) := by
    rw [Logbook.accepts, hthreshold]
    cases verbose with
    | false => exact decide_eq_decide.2 Int.ofNat_le.symm
    | true => exact decide_eq_decide.2 Int.ofNat_le.symm
  rw [Logbook.enter, haccepts]
  -- a record that reaches the threshold goes to both outputs, any other to none
  by_cases hreach : threshold verbose ≤ severity.rank
  · have hhears := hconfigured.hears_of_no_dot hlogger hname hreach
    obtain ⟨hline, hdisk⟩ := hconfigured.log_of_hears hlogger hhears hreach
    rw [if_pos (decide_eq_true hreach)]
    refine ⟨?_, ?_, verbose, file, hconfigured', hthreshold, ?_⟩
    · rw [hdisk, fileLine_notice, Logbook.keep, hfile]
      cases file with
      | none => rfl
      | some path => rfl
    · rw [hline, shownLine_notice, ← hshown]
    · rw [hpaths]
      exact hfile
  · have hbelow := hconfigured.log_of_below hlogger (Int.not_le.1 hreach)
    rw [if_neg (by simpa using hreach)]
    refine ⟨by rw [hbelow]; rfl, by rw [hbelow]; exact hshown, verbose, file, hconfigured',
      hthreshold, ?_⟩
    rw [hpaths]
    exact hfile

end Logging

end Minifier
