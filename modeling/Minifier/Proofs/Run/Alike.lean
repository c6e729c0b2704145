import Minifier.Proofs.Run.Plan

/-!
# Alike sessions

Two sessions are alike under some settings when both hold them, have the exclusions of these in
force, agree on the disk and the clock, and have logs that do the same to the disk
(`Session.Alike`): equal ones, or two that add to no file (`Logbook.Congruence`). They may differ in
where their exclusions are kept, in the meter, in the bar and in what was printed. No step of a run
can tell alike sessions apart: it gives the same value or fails in the same way, and leaves alike
sessions (`Job.Uniform`). So neither can a run as a whole (`Run.uniform_process`).
-/

set_option autoImplicit false

namespace Minifier

/-! ## Logs -/

namespace Logbook

/-- A relation of logs that every record keeps, and that makes it do the same to the disk. -/
structure Congruence where
  Holds : Logbook → Logbook → Prop
  enter : ∀ {book book' : Logbook}, Holds book book' → ∀ clock record disk,
    Holds (book.enter clock record disk).1 (book'.enter clock record disk).1 ∧
      (book.enter clock record disk).2 = (book'.enter clock record disk).2

/-- Logs that are equal. -/
def Congruence.equal : Congruence where
  Holds := Eq
  enter := by
    rintro book _ rfl clock record disk
    exact ⟨rfl, rfl⟩

/-- Logs that add to no file. -/
def Congruence.fileless : Congruence where
  Holds := fun book book' => book.file = none ∧ book'.file = none
  enter := by
    intro book book' h clock record disk
    obtain ⟨hfile, hdisk⟩ := enter_of_no_file h.1 clock record disk
    obtain ⟨hfile', hdisk'⟩ := enter_of_no_file h.2 clock record disk
    exact ⟨⟨hfile, hfile'⟩, hdisk.trans hdisk'.symm⟩

end Logbook

/-! ## Sessions -/

/-- Two sessions that go by the same settings and see the same. -/
structure Session.Alike (logs : Logbook.Congruence) (settings : Settings) (s t : Session) :
    Prop where
  disk : s.disk = t.disk
  clock : s.clock = t.clock
  log : logs.Holds s.log t.log
  settings_left : s.settings = some settings
  settings_right : t.settings = some settings
  exclusions_left : Run.exclusionsOf s = Exclusion.parseAll settings.excludePaths
  exclusions_right : Run.exclusionsOf t = Exclusion.parseAll settings.excludePaths

variable {logs : Logbook.Congruence} {settings : Settings} {s t : Session}

namespace Job

variable {α β : Type} {job : Job α} {next : α → Job β}

/-- From these sessions a job gives the same value or failure, and leaves alike sessions. -/
def SameFrom (logs : Logbook.Congruence) (settings : Settings) (job : Job α)
    (s t : Session) : Prop :=
  (job.run s).1 = (job.run t).1 ∧ Session.Alike logs settings (job.run s).2 (job.run t).2

/-- A job cannot tell apart sessions that are alike. -/
def Uniform (logs : Logbook.Congruence) (settings : Settings) (job : Job α) : Prop :=
  ∀ ⦃s t : Session⦄, Session.Alike logs settings s t → SameFrom logs settings job s t

/-! ## Jobs made of jobs -/

theorem uniform_pure (a : α) : Uniform logs settings (pure a) := by
  intro s t h
  exact ⟨rfl, h⟩

theorem uniform_throw (failure : Failure) : Uniform logs settings (throw failure : Job α) := by
  intro s t h
  exact ⟨rfl, h⟩

/-- The session in which the first of two steps fails is that in which both end. -/
theorem run_bind (job : Job α) (next : α → Job β) (s : Session) :
    (job >>= next).run s =
      match (job.run s).1 with
      | .ok a => (next a).run (job.run s).2
      | .error failure => (.error failure, (job.run s).2) := by
  have hrun : (job >>= next).run s =
      (ExceptT.bindCont next (job.run s).1 : StateM Session _) (job.run s).2 := rfl
  rw [hrun]
  cases (job.run s).1 with
  | ok a => rfl
  | error failure => rfl

theorem run_bind_of_gives {s t : Session} {a : α} (h : Gives job s a t) (next : α → Job β) :
    (job >>= next).run s = (next a).run t := by
  rw [run_bind, show job.run s = (.ok a, t) from h]

theorem run_bind_of_error {s t : Session} {failure : Failure} (h : job.run s = (.error failure, t))
    (next : α → Job β) : (job >>= next).run s = (.error failure, t) := by
  rw [run_bind, h]

theorem Uniform.bind (hjob : Uniform logs settings job)
    (hnext : ∀ a, Uniform logs settings (next a)) : Uniform logs settings (job >>= next) := by
  intro s t h
  obtain ⟨hvalue, hleft⟩ := hjob h
  rw [SameFrom, run_bind, run_bind, hvalue]
  -- either both go on with the same value, or both have failed already
  cases (job.run t).1 with
  | ok a => exact hnext a hleft
  | error failure => exact ⟨rfl, hleft⟩

theorem run_get_bind (next : Session → Job β) (s : Session) :
    (get >>= next : Job β).run s = (next s).run s :=
  rfl

/-- A step that looks at the session is uniform if what it sees is the same in alike sessions. -/
theorem uniform_get_bind {next : Session → Job β}
    (h : ∀ ⦃s t : Session⦄, Session.Alike logs settings s t →
      next s = next t ∧ Uniform logs settings (next t)) :
    Uniform logs settings (get >>= next) := by
  intro s t halike
  rw [SameFrom, run_get_bind, run_get_bind, (h halike).1]
  exact (h halike).2 halike

theorem uniform_modify {f : Session → Session}
    (h : ∀ ⦃s t : Session⦄, Session.Alike logs settings s t →
      Session.Alike logs settings (f s) (f t)) :
    Uniform logs settings (modify f) := by
  intro s t halike
  exact ⟨rfl, h halike⟩

theorem Uniform.ite {p : Prop} [Decidable p] {job job' : Job α} (hjob : Uniform logs settings job)
    (hjob' : Uniform logs settings job') : Uniform logs settings (if p then job else job') := by
  split
  · exact hjob
  · exact hjob'

theorem uniform_forM {f : α → Job Unit} (hf : ∀ a, Uniform logs settings (f a))
    (list : List α) : Uniform logs settings (list.forM f) := by
  induction list with
  | nil => exact uniform_pure ()
  | cons a list ih => exact (hf a).bind fun _ => ih

theorem uniform_mapM {f : α → Job β} (hf : ∀ a, Uniform logs settings (f a))
    (list : List α) : Uniform logs settings (list.mapM f) := by
  induction list with
  | nil => exact uniform_pure []
  | cons a list ih =>
    rw [List.mapM_cons]
    exact (hf a).bind fun b => ih.bind fun rest => uniform_pure (b :: rest)

theorem uniform_filterM {f : α → Job Bool} (hf : ∀ a, Uniform logs settings (f a))
    (list : List α) : Uniform logs settings (list.filterM f) := by
  have haux : ∀ done : List α, Uniform logs settings (list.filterAuxM f done) := by
    induction list with
    | nil => exact fun done => uniform_pure done
    | cons a list ih => exact fun done => (hf a).bind fun kept => ih _
  exact (haux []).bind fun done => uniform_pure done.reverse

/-! ## Single steps -/

theorem uniform_report (record : LogRecord) : Uniform logs settings (report record) := by
  refine uniform_modify fun s t h => ?_
  obtain ⟨hlogs, hdisk⟩ := logs.enter h.log t.clock record t.disk
  rw [h.clock, h.disk]
  exact ⟨hdisk, rfl, hlogs, h.settings_left, h.settings_right, h.exclusions_left,
    h.exclusions_right⟩

theorem uniform_note (severity : Severity) (message : String) :
    Uniform logs settings (note severity message) :=
  uniform_report _

theorem uniform_logged (value : Logged α) : Uniform logs settings (logged value) :=
  (uniform_forM uniform_report value.records).bind fun _ => uniform_pure value.value

theorem uniform_loggedTry {ε : Type} (failure : ε → Failure) (value : ExceptT ε Logged α) :
    Uniform logs settings (loggedTry failure value) := by
  refine (uniform_logged value.run).bind fun answer => ?_
  cases answer with
  | ok result => exact uniform_pure result
  | error error => exact uniform_throw (failure error)

theorem uniform_ask (question : Disk → Except Failure α) :
    Uniform logs settings (ask question) := by
  refine uniform_get_bind fun s t h => ⟨by rw [h.disk], ?_⟩
  cases question t.disk with
  | ok answer => exact uniform_pure answer
  | error failure => exact uniform_throw failure

/-- A step that changes only what alike sessions may differ in. -/
theorem uniform_of_unseen {job : Job Unit}
    (h : ∀ s, ∃ meter printed, Gives job s () { s with meter, printed }) :
    Uniform logs settings job := by
  intro s t halike
  obtain ⟨meter, printed, hs⟩ := h s
  obtain ⟨meter', printed', ht⟩ := h t
  rw [SameFrom, show job.run s = _ from hs, show job.run t = _ from ht]
  exact ⟨rfl, halike.disk, halike.clock, halike.log, halike.settings_left, halike.settings_right,
    halike.exclusions_left, halike.exclusions_right⟩

theorem uniform_startMeter (total : Nat) : Uniform logs settings (startMeter total) :=
  uniform_of_unseen fun s => ⟨Meter.start total, s.printed, gives_modify_iff.2 rfl⟩

theorem uniform_advance (label : String) : Uniform logs settings (advance label) := by
  refine uniform_of_unseen fun s => ?_
  cases hwidth : s.barWidth with
  | some width =>
    refine ⟨s.meter.advance, s.printed ++ s.meter.advance.bar width label, ?_⟩
    refine gives_bind_iff.2 ⟨(), _, gives_modify_iff.2 rfl, gives_get_bind_iff.2 ?_⟩
    simp only [hwidth]
    exact gives_modify_iff.2 rfl
  | none =>
    refine ⟨s.meter.advance, s.printed, ?_⟩
    refine gives_bind_iff.2 ⟨(), _, gives_modify_iff.2 rfl, gives_get_bind_iff.2 ?_⟩
    simp only [hwidth]
    exact gives_pure_iff.2 ⟨rfl, rfl⟩

theorem uniform_finishMeter : Uniform logs settings finishMeter := by
  refine uniform_of_unseen fun s => ?_
  cases hwidth : s.barWidth.isSome with
  | true =>
    refine ⟨s.meter, s.printed ++ s.meter.ending, gives_get_bind_iff.2 ?_⟩
    simp only [hwidth, if_true]
    exact gives_modify_iff.2 rfl
  | false =>
    refine ⟨s.meter, s.printed, gives_get_bind_iff.2 ?_⟩
    simp only [hwidth, Bool.false_eq_true, if_false]
    exact gives_pure_iff.2 ⟨rfl, rfl⟩

theorem uniform_read (path : Path) : Uniform logs settings (read path) := by
  refine uniform_get_bind fun s t h => ⟨by rw [h.disk], ?_⟩
  cases t.disk.readProtected path with
  | ok bytes => exact uniform_pure (some (Utf8.decode bytes))
  | error error =>
    refine Uniform.ite ?_ ?_
    · exact (uniform_throw _).bind fun _ => (uniform_note _ _).bind fun _ => uniform_pure none
    · exact (uniform_note _ _).bind fun _ => uniform_pure none

theorem uniform_write (path : Path) (content : Text) :
    Uniform logs settings (write path content) := by
  refine uniform_get_bind fun s t h => ⟨by rw [h.disk], ?_⟩
  cases t.disk.save path (Utf8.encode content) with
  | mk answer disk =>
    dsimp only
    refine Uniform.bind (uniform_modify fun s t h => ?_) fun _ => ?_
    · exact ⟨rfl, h.clock, h.log, h.settings_left, h.settings_right, h.exclusions_left,
        h.exclusions_right⟩
    cases answer with
    | ok done => exact uniform_pure true
    | error error =>
      refine Uniform.ite ?_ ?_
      · exact (uniform_throw _).bind fun _ => (uniform_note _ _).bind fun _ => uniform_pure false
      · exact (uniform_note _ _).bind fun _ => uniform_pure false

end Job

namespace Run

open Job

variable {rules : Option RuleSet}

/-! ## Finding files -/

theorem uniform_refuse (message : String) : Uniform logs settings (refuse message) :=
  (uniform_note _ _).bind fun _ => uniform_pure _

theorem uniform_directoryBeside (source : Path) : Uniform logs settings (directoryBeside source) :=
  (uniform_ask _).bind fun _ => uniform_pure _

/-- The first scan of one session may be a later scan of the other: both hold the exclusions of
their settings afterwards. -/
theorem uniform_holdExclusions : Uniform logs settings holdExclusions := by
  refine uniform_get_bind fun s t h => ⟨?_, ?_⟩
  · rw [h.exclusions_left, h.exclusions_right]
  · rw [h.exclusions_right]
    refine Uniform.bind (uniform_modify fun s t h => ?_) fun _ => uniform_pure _
    exact ⟨h.disk, h.clock, h.log, h.settings_left, h.settings_right, rfl, rfl⟩

theorem uniform_filesBelow? (source : Path) (suffixes : List String) (skipped : List Path) :
    Uniform logs settings (filesBelow? source suffixes skipped) := by
  refine uniform_holdExclusions.bind fun exclusions => ?_
  refine uniform_get_bind fun s t h => ⟨by rw [h.disk], ?_⟩
  refine (uniform_logged _).bind fun answer => ?_
  cases answer with
  | ok files => exact uniform_pure _
  | error error =>
    cases error with
    | missing path => exact uniform_pure none
    | notADirectory path => exact uniform_pure none
    | path error => exact uniform_throw _

theorem uniform_findFiles (source : Path) (suffixes : List String)
    (skippedDirectories skippedFiles : List Path) :
    Uniform logs settings (findFiles source suffixes skippedDirectories skippedFiles) := by
  refine (uniform_filesBelow? _ _ _).bind fun found? => ?_
  cases found? with
  | none => exact uniform_pure _
  | some found =>
    refine (uniform_mapM (fun _ => uniform_ask _) _).bind fun outputs => ?_
    refine Uniform.bind (uniform_filterM (fun file => ?_) _) fun files => ?_
    · exact (uniform_ask _).bind fun _ => uniform_pure _
    refine Uniform.ite (uniform_pure _) ?_
    exact (uniform_note _ _).bind fun _ => uniform_pure _

/-! ## Handling files -/

theorem uniform_minifyFile (rules : Option RuleSet) (file : SourceFile) :
    Uniform logs settings (minifyFile rules file) := by
  cases rules with
  | none =>
    refine (uniform_read _).bind fun content? => ?_
    cases content? with
    | none => exact uniform_pure _
    | some content => exact uniform_pure _
  | some rules =>
    refine (uniform_read _).bind fun content? => ?_
    cases content? with
    | none => exact uniform_pure _
    | some content =>
      refine (uniform_logged _).bind fun minified? => ?_
      cases minified? with
      | some minified => exact uniform_pure _
      | none => exact (uniform_note _ _).bind fun _ => uniform_pure _

theorem uniform_deliver (directory : Path) (file : SourceFile) (outcome : Outcome) :
    Uniform logs settings (deliver directory file outcome) := by
  cases outcome with
  | done content minified =>
    exact (uniform_write _ _).bind fun written => (uniform_pure _).ite (uniform_pure _)
  | skipped => exact uniform_pure _
  | failed => exact uniform_pure _

theorem uniform_handling (combine : Bool) (rules : Option RuleSet) (output : Path)
    (file : SourceFile) : Uniform logs settings (handling combine rules output file) := by
  refine Uniform.ite (uniform_minifyFile rules file) ?_
  exact (uniform_minifyFile rules file).bind fun outcome => uniform_deliver output file outcome

theorem uniform_handleAll {handle : SourceFile → Job Outcome}
    (hhandle : ∀ file, Uniform logs settings (handle file)) (files : List SourceFile) :
    Uniform logs settings (handleAll handle files) := by
  refine (uniform_startMeter _).bind fun _ => ?_
  refine Uniform.bind (uniform_mapM (fun file => ?_) files) fun outcomes => ?_
  · exact (hhandle file).bind fun outcome => (uniform_advance _).bind fun _ => uniform_pure _
  · exact uniform_finishMeter.bind fun _ => uniform_pure outcomes

/-! ## Stages -/

theorem uniform_combinedName (rules : Option RuleSet) (source : Path) :
    Uniform logs settings (combinedName rules source) := by
  cases rules with
  | some rules => exact uniform_pure _
  | none => exact (uniform_ask _).bind fun _ => uniform_pure _

theorem uniform_survey (combine : Bool) (rules : Option RuleSet) (source : Path)
    (output : Option Path) : Uniform logs settings (survey combine rules source output) := by
  refine (uniform_ask _).bind fun source => Uniform.ite ?_ ?_
  · refine (uniform_directoryBeside source).bind fun beside => ?_
    have hfind : ∀ output : Path, Uniform logs settings (do
        return (output, ← findFiles source (suffixesOf rules) [beside] [output])) :=
      fun output => (uniform_findFiles _ _ _ _).bind fun found => uniform_pure (output, found)
    cases output with
    | some output => exact (uniform_pure output).bind hfind
    | none =>
      exact (uniform_combinedName rules source).bind fun name => (uniform_pure _).bind hfind
  · have hfind : ∀ output : Path, Uniform logs settings (do
        return (output, ← findFiles source (suffixesOf rules) [output] [])) :=
      fun output => (uniform_findFiles _ _ _ _).bind fun found => uniform_pure (output, found)
    cases output with
    | some output => exact (uniform_pure output).bind hfind
    | none => exact (uniform_directoryBeside source).bind hfind

theorem uniform_bundle (rules : Option RuleSet) (outcomes : List (SourceFile × Outcome)) :
    Uniform logs settings (bundle rules outcomes) := by
  cases rules with
  | none => exact uniform_pure _
  | some rules =>
    -- the header shows the time
    refine uniform_get_bind fun s t h => ⟨by rw [h.clock], ?_⟩
    cases header [] rules t.clock with
    | error missing => exact uniform_throw _
    | ok header => exact uniform_pure _

theorem uniform_writeCombined (summary : Summary) (output : Path) (text : Text) :
    Uniform logs settings (writeCombined summary output text) := by
  refine (uniform_write _ _).bind fun written => Uniform.ite ?_ (uniform_pure _)
  exact (uniform_note _ _).bind fun _ => uniform_pure _

theorem uniform_conclude (combine : Bool) (rules : Option RuleSet) (output : Path)
    (outcomes : List (SourceFile × Outcome)) :
    Uniform logs settings (conclude combine rules output outcomes) := by
  refine Uniform.ite ?_ ?_
  · exact (uniform_bundle rules outcomes).bind fun bundle => uniform_writeCombined _ _ _
  · exact (uniform_note _ _).bind fun _ => uniform_pure _

theorem uniform_overDirectory (combine : Bool) (rules : Option RuleSet) (source : Path)
    (output : Option Path) : Uniform logs settings (overDirectory combine rules source output) := by
  rw [overDirectory_eq_stages]
  refine (uniform_survey combine rules source output).bind fun (target, found) => ?_
  cases found with
  | error message => exact uniform_refuse message
  | ok files =>
    refine (uniform_handleAll (uniform_handling combine rules target) files).bind fun outcomes => ?_
    exact uniform_conclude combine rules target outcomes

theorem uniform_single (source : Path) (output : Option Path) :
    Uniform logs settings (single source output) := by
  refine (uniform_ask _).bind fun source => ?_
  refine (uniform_ask _).bind fun isFile => Uniform.ite (uniform_refuse _) ?_
  cases Kind.ofPath? source with
  | none => exact uniform_refuse _
  | some kind =>
    refine (uniform_read _).bind fun content? => ?_
    cases content? with
    | none => exact uniform_pure _
    | some content =>
      refine (uniform_write _ _).bind fun written => Uniform.ite ?_ (uniform_pure _)
      exact (uniform_note _ _).bind fun _ => uniform_pure _

/-! ## Requests -/

theorem uniform_rulesOf (given : Settings) (framework : Option String) :
    Uniform logs settings (rulesOf given framework) := by
  cases framework with
  | none => exact uniform_pure none
  | some name =>
    exact Uniform.ite (uniform_pure none) ((uniform_loggedTry _ _).bind fun _ => uniform_pure _)

theorem uniform_planWith (request : Request) (source : Path) (given : Settings) :
    Uniform logs settings (planWith request source given) := by
  obtain ⟨requested, output, combine, framework⟩ := request
  have hrules : ∀ output : Option Path, Uniform logs settings (do
      let rules ← rulesOf given framework
      let isDirectory ← if rules.isSome then pure true else Job.isDirectory source
      return Plan.choose combine rules source output isDirectory) := by
    intro output
    refine (uniform_rulesOf given framework).bind fun rules => ?_
    cases rules with
    | some rules => exact (uniform_pure true).bind fun _ => uniform_pure _
    | none => exact (uniform_ask _).bind fun _ => uniform_pure _
  cases output with
  | none => exact (uniform_pure given.output).bind hrules
  | some output =>
    exact (uniform_ask _).bind fun expanded => (uniform_pure (some expanded)).bind hrules

/-- Settings that are there are not loaded again. -/
theorem uniform_settingsFor (source : Path) : Uniform logs settings (settingsFor source) := by
  refine uniform_get_bind fun s t h => ?_
  rw [h.settings_left, h.settings_right]
  exact ⟨rfl, uniform_pure settings⟩

theorem uniform_planRun (plan : Plan) : Uniform logs settings plan.run := by
  cases plan with
  | single source output => exact uniform_single source output
  | overDirectory combine rules source output => exact uniform_overDirectory _ _ _ _

/-- Alike sessions answer a request alike. -/
theorem uniform_process (request : Request) : Uniform logs settings (process request) := by
  rw [process_eq_planOf]
  refine Uniform.bind ((uniform_ask _).bind fun source => ?_) uniform_planRun
  exact (uniform_settingsFor source).bind fun given => uniform_planWith request source given

end Run

end Minifier
