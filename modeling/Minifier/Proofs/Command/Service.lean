import Minifier.Call
import Minifier.Command
import Minifier.Proofs.Command.Arguments
import Minifier.Proofs.Run.Rerun
import Minifier.Proofs.Run.Reuse
import Minifier.RuleSet.Laravel

/-!
# The command line and the service

A run can be asked for on the command line or over the network. Both ways load the settings beside
the source, do the same run and leave the same disk (`command_agrees_with_service_iff_told`). They
differ in what they do with its summary: the command line prints it, and fails if that is not
possible (`Command.IsTold`), as after a run whose output has a name that is too long
(`long_output_ends_command_only`).
-/

set_option autoImplicit false

namespace Minifier

open Job
open Run

theorem Job.run_attempt {α : Type} (step : Job α) (s : Session) :
    (attempt step).run s = (.ok (step.run s).1, (step.run s).2) :=
  rfl

namespace Command

variable {options : MinifyOptions} {summary : Summary} {source path : Path} {s t : Session}

/-! ## Printing a summary -/

theorem exists_gives_printLines (lines : List String) (s : Session) :
    ∃ t, Gives (printLines lines) s () t ∧ t.disk = s.disk := by
  induction lines generalizing s with
  | nil => exact ⟨s, gives_pure_iff.2 ⟨rfl, rfl⟩, rfl⟩
  | cons line lines ih =>
    obtain ⟨t, hrest, hdisk⟩ := ih { s with printed := s.printed ++ (line ++ "\n") }
    exact ⟨t, gives_bind_iff.2 ⟨(), _, gives_modify_iff.2 rfl, hrest⟩, hdisk⟩

theorem exists_gives_placeLine {isDirectory : Bool}
    (h : s.disk.isDirectory? path = .ok isDirectory) : ∃ line, Gives (placeLine path) s line s := by
  have hask : Gives (Job.isDirectory path) s isDirectory s := by
    rw [Gives, Job.isDirectory, run_ask, h]
    rfl
  exact ⟨_, gives_bind_iff.2 ⟨isDirectory, s, hask,
    gives_get_bind_iff.2 (gives_pure_iff.2 ⟨rfl, rfl⟩)⟩⟩

theorem run_placeLine_of_error {error : DiskError} (h : s.disk.isDirectory? path = .error error) :
    (placeLine path).run s = (.error (.path (.disk error)), s) := by
  apply run_bind_of_error
  rw [Job.isDirectory, run_ask, h]
  rfl

/-- All of a summary can be printed: its sizes can be written, and it can be seen whether its output
is a directory. -/
structure IsTold (options : MinifyOptions) (disk : Disk) (summary : Summary) : Prop where
  sizes : (sizeLines options summary).isOk = true
  place : ∀ path, summary.outputPath = some path → (disk.isDirectory? path).isOk = true

/-- Printing a summary succeeds exactly when all of it can be printed, and leaves the disk alone. -/
theorem run_printSummary (options : MinifyOptions) (summary : Summary) (s : Session) :
    (((printSummary options summary).run s).1 = .ok () ↔ IsTold options s.disk summary) ∧
      ((printSummary options summary).run s).2.disk = s.disk := by
  -- the first lines are printed in any case; then the sizes may fail, and last the place
  obtain ⟨t, hcounts, hdisk⟩ := exists_gives_printLines (countLines options summary) s
  rw [printSummary, run_bind_of_gives hcounts, ← hdisk]
  cases hsizes : sizeLines options summary with
  | error error =>
    have hnot : ¬ IsTold options t.disk summary := fun h => by
      have hok := h.sizes
      rw [hsizes] at hok
      cases hok
    exact ⟨iff_of_false (fun h => by cases h) hnot, rfl⟩
  | ok lines =>
    have hsizesOk : (sizeLines options summary).isOk = true := by
      rw [hsizes]
      rfl
    obtain ⟨u, hlines, hdisk⟩ := exists_gives_printLines lines t
    dsimp only
    rw [run_bind_of_gives hlines, ← hdisk]
    cases hpath : summary.outputPath with
    | none =>
      have htold : IsTold options u.disk summary :=
        ⟨hsizesOk, fun path h => by rw [hpath] at h; cases h⟩
      exact ⟨iff_of_true rfl htold, rfl⟩
    | some path =>
      dsimp only
      cases hdirectory : u.disk.isDirectory? path with
      | error error =>
        have hnot : ¬ IsTold options u.disk summary := fun h => by
          have hok := h.place path hpath
          rw [hdirectory] at hok
          cases hok
        rw [run_bind_of_error (run_placeLine_of_error hdirectory)]
        exact ⟨iff_of_false (fun h => by cases h) hnot, rfl⟩
      | ok isDirectory =>
        have htold : IsTold options u.disk summary := by
          refine ⟨hsizesOk, fun other hother => ?_⟩
          cases hpath.symm.trans hother
          rw [hdirectory]
          rfl
        obtain ⟨line, hline⟩ := exists_gives_placeLine hdirectory
        obtain ⟨v, hplace, hdisk⟩ := exists_gives_printLines [line] u
        rw [run_bind_of_gives hline, show (printLines [line]).run u = _ from hplace]
        exact ⟨iff_of_true rfl htold, hdisk⟩

/-- The program ends well after a run whose summary is well and can be told. -/
theorem run_conclude (options : MinifyOptions) (summary : Summary) (s : Session) :
    (((conclude options summary).run s).1 = .ok .finished ↔
        summary.ok = true ∧ IsTold options s.disk summary) ∧
      ((conclude options summary).run s).2.disk = s.disk := by
  obtain ⟨htold, hdisk⟩ := run_printSummary options summary s
  rw [conclude]
  split
  · next hnone =>
    have hbad : summary.ok ≠ true := by
      intro hok
      simp only [Summary.ok, Bool.and_eq_true, Option.isNone_iff_eq_none] at hok
      simp [hok.1.1] at hnone
    exact ⟨iff_of_false (fun h => by cases h) fun h => hbad h.1, rfl⟩
  · rw [run_bind]
    cases hprinted : ((printSummary options summary).run s).1 with
    | error failure =>
      rw [hprinted] at htold
      exact ⟨iff_of_false (fun h => by cases h) fun h => (by cases htold.2 h.2), hdisk⟩
    | ok done =>
      rw [hprinted] at htold
      dsimp only
      split
      · next hok => exact ⟨iff_of_true rfl ⟨hok, htold.1 rfl⟩, hdisk⟩
      · next hok => exact ⟨iff_of_false (fun h => by cases h) fun h => hok h.1, hdisk⟩

/-- A job whose summary the program ends with: it ends well if the job gives a summary that is well
and can be told. -/
theorem run_bind_conclude (options : MinifyOptions) (job : Job Summary) (s : Session) :
    (((job >>= conclude options).run s).1 = .ok .finished ↔
        ∃ summary, (job.run s).1 = .ok summary ∧ summary.ok = true ∧
          IsTold options (job.run s).2.disk summary) ∧
      ((job >>= conclude options).run s).2.disk = (job.run s).2.disk := by
  rw [run_bind]
  cases hended : (job.run s).1 with
  | error failure =>
    refine ⟨iff_of_false (fun h => by cases h) ?_, rfl⟩
    rintro ⟨summary, ⟨⟩, -⟩
  | ok summary =>
    obtain ⟨hfinished, hdisk⟩ := run_conclude options summary (job.run s).2
    refine ⟨hfinished.trans ⟨fun h => ⟨summary, rfl, h⟩, ?_⟩, hdisk⟩
    rintro ⟨_, ⟨⟩, h⟩
    exact h

/-! ## A run from the command line -/

/-- The command line loads the settings beside the source. -/
theorem run_settingsFor (source : Path) (s : Session) :
    (settingsFor source none).run s = (settingsBeside s.disk source, s) := by
  rw [settingsFor, settingsBeside]
  simp only [run_bind, Job.isDirectory, run_ask]
  cases (s.disk.isDirectory? source).mapError (fun error => Failure.path (.disk error)) with
  | error failure => rfl
  | ok isDirectory =>
    cases isDirectory with
    | true => exact run_ask (fun disk => Settings.load disk source) s
    | false => exact run_ask (fun disk => Settings.load disk source.parent) s

/-- The request for a run with given options. -/
def requestFor (options : MinifyOptions) (source : Path) : Request where
  source := source
  output := options.output.map Path.ofString
  combine := options.combine
  framework := options.framework

/-- The session in which the command line does a run. -/
def prepared (options : MinifyOptions) (settings : Settings) (s : Session) : Session :=
  { s with
    log := (s.log.configure options.verbose none s.disk).2.1
    settings := some settings
    barWidth := if options.noProgress then none else some barWidth }

theorem run_minifyUnder {settings : Settings} (hfile : settings.logFile = none)
    (options : MinifyOptions) (source : Path) (s : Session) :
    (minifyUnder options source settings).run s =
      (Run.process (requestFor options source) >>= conclude options).run
        (prepared options settings s) := by
  rw [minifyUnder, hfile]
  rfl

theorem run_minify (hexpand : s.disk.expandHome (Path.ofString options.source) = .ok source)
    (hconfig : options.config = none) :
    (minify options).run s =
      match settingsBeside s.disk source with
      | .ok settings => (minifyUnder options source settings).run s
      | .error failure =>
        if failure.nature = .settings then
          (.ok (.refused failureCode
            (Invocation.program ++ ": " ++ failure.message?.getD "" ++ "\n")), s)
        else (.error failure, s) := by
  have hgives : Gives (expandHome (Path.ofString options.source)) s source s := by
    rw [Gives, expandHome, run_ask, hexpand]
    rfl
  rw [minify, run_bind_of_gives hgives, hconfig, run_bind, run_attempt, run_settingsFor]
  cases settingsBeside s.disk source with
  | ok settings => rfl
  | error failure =>
    dsimp only
    split <;> rfl

end Command

/-! ## A run over the network -/

namespace Call

variable {call : Call} {request : ProcessRequest} {source : Path} {s : Session}

/-- The run that a call asks for. -/
def requestFor (request : ProcessRequest) (source : Path) : Request where
  source := source
  output := request.output.map Path.ofString
  combine := request.combine
  framework := request.framework

/-- What the service makes of the end of a job: some failures are answered. -/
def answered : Except Failure Reply → Except Failure Reply
  | .ok reply => .ok reply
  | .error failure =>
    match statusOf? failure.nature with
    | some status => .ok (.refused status (failure.message?.getD ""))
    | none => .error failure

theorem run_answering (job : Job Reply) (s : Session) :
    (answering job).run s = (answered (job.run s).1, (job.run s).2) := by
  rw [answering, run_bind, run_attempt]
  cases (job.run s).1 with
  | ok reply => rfl
  | error failure =>
    dsimp only [answered]
    cases statusOf? failure.nature <;> rfl

/-- A source that is there is handed to a run. -/
theorem run_runRequest (hexpand : s.disk.expandHome (Path.ofString request.source) = .ok source)
    (hexists : s.disk.exists? source = .ok true) :
    (runRequest request).run s =
      (((Run.process (requestFor request source)).run s).1.map .processed,
        ((Run.process (requestFor request source)).run s).2) := by
  have hgives : Gives (expandHome (Path.ofString request.source)) s source s := by
    rw [Gives, expandHome, run_ask, hexpand]
    rfl
  have hthere : Gives (isThere source) s true s := by
    rw [Gives, isThere, run_ask, hexists]
    rfl
  rw [runRequest, run_bind_of_gives hgives, run_bind_of_gives hthere]
  simp only [Bool.not_true, Bool.false_eq_true, if_false, run_bind, requestFor]
  generalize (Run.process _).run s = run
  obtain ⟨ended, t⟩ := run
  cases ended <;> rfl

/-- A call that asks for a run over a source that is there. -/
structure AsksFor (call : Call) (disk : Disk) (request : ProcessRequest) (source : Path) :
    Prop where
  page : Page.at? call.path = some .process
  method : call.method = "POST"
  body : readBody processRequest call.body = .ok request
  expanded : disk.expandHome (Path.ofString request.source) = .ok source
  there : disk.exists? source = .ok true

/-- A call for a run is answered with its summary, or with the failure that ended it. -/
theorem run_answer (h : call.AsksFor s.disk request source) :
    (answer call).run s =
      (answered (((Run.process (requestFor request source)).run s).1.map .processed),
        ((Run.process (requestFor request source)).run s).2) := by
  have hvisit : answer call = answering (runRequest request) := by
    rw [answer, h.page]
    dsimp only
    rw [if_pos (show call.method = Page.process.method from h.method), visit, h.body]
  rw [hvisit, run_answering, run_runRequest h.expanded h.there]

/-- The answer is a summary exactly when the run gives it. -/
theorem answered_eq_processed_iff {ended : Except Failure Summary} {summary : Summary} :
    answered (ended.map .processed) = .ok (.processed summary) ↔ ended = .ok summary := by
  cases ended with
  | ok found =>
    show Except.ok (Reply.processed found) = _ ↔ _
    constructor
    · intro h
      cases h
      rfl
    · intro h
      cases h
      rfl
  | error failure =>
    refine iff_of_false (fun h => ?_) fun h => by cases h
    dsimp only [Except.map, answered] at h
    split at h <;> cases h

end Call

/-! ## Both ways -/

/-- The options of a run that is asked for on the command line. -/
def optionsFor (source : String) (output : Option String) (combine laravel : Bool) :
    MinifyOptions where
  source := source
  output := output
  combine := combine
  framework := if laravel then some "laravel" else none

/-- The body of a call that asks for a run. -/
def bodyFor (source : String) (output : Option String) (combine laravel : Bool) :
    Call.ProcessRequest where
  source := source
  output := output
  combine := combine
  framework := if laravel then some "laravel" else none

section

variable {disk : Disk} (clock : Stamp) (log : Logbook) {source : String} {output : Option String}
  {combine laravel : Bool} {place : Path} {call : Call}

/-- Both ways do one run: the sessions in which they begin it are alike. -/
theorem alike_prepared (hlog : log.file = none) (options : MinifyOptions) (settings : Settings) :
    Session.Alike .fileless settings (Command.prepared options settings { disk, clock })
      { disk, clock, log, settings := some settings } :=
  ⟨rfl, rfl, ⟨rfl, hlog⟩, rfl, rfl, rfl, rfl⟩

/-- The arguments of a run make the program minify. -/
theorem run_argumentsFor (hsource : Argument.IsPlain source)
    (houtput : ∀ text, output = some text → Argument.IsPlain text) :
    Command.run (Invocation.argumentsFor source output combine laravel) =
      Command.minify (optionsFor source output combine laravel) := by
  rw [Command.run, Invocation.ofArguments_argumentsFor hsource houtput]
  rfl

section

variable (hhome : disk.home.isAbsolute = true)
  (hasks : call.AsksFor disk (bodyFor source output combine laravel) place)

include hhome hasks

/-- The service loads the settings beside the source. -/
theorem run_answer_eq_match :
    (Call.answer call).run { disk, clock, log } =
      match settingsBeside disk place with
      | .ok settings =>
        let ended := (Run.process (Command.requestFor (optionsFor source output combine laravel)
          place)).run { disk, clock, log, settings := some settings }
        (Call.answered (ended.1.map .processed), ended.2)
      | .error failure => (Call.answered (.error failure), { disk, clock, log }) := by
  -- the run expands a path that is expanded already
  have hload : settingsAt disk (Command.requestFor (optionsFor source output combine laravel)
      place) = settingsBeside disk place := by
    rw [settingsAt, Command.requestFor, Disk.expandHome_of_expandHome hhome hasks.expanded]
    rfl
  rw [Call.run_answer hasks, show Call.requestFor _ place =
    Command.requestFor (optionsFor source output combine laravel) place from rfl, run_process rfl,
    hload]
  cases settingsBeside disk place <;> rfl

/-- With settings beside the source, both ways do one run. -/
theorem agree_of_settings (hlog : log.file = none) {settings : Settings}
    (hbeside : settingsBeside disk place = .ok settings) (hfile : settings.logFile = none) :
    let ended := (Command.minify (optionsFor source output combine laravel)).run { disk, clock }
    let answered := (Call.answer call).run { disk, clock, log }
    ended.2.disk = answered.2.disk ∧
      (ended.1 = .ok .finished ↔ ∃ summary, answered.1 = .ok (.processed summary) ∧
        summary.ok = true ∧
          Command.IsTold (optionsFor source output combine laravel) answered.2.disk summary) := by
  intro ended answered
  obtain ⟨options, hoptions⟩ : ∃ options, options = optionsFor source output combine laravel :=
    ⟨_, rfl⟩
  have hended : ended = (Run.process (Command.requestFor options place) >>=
      Command.conclude options).run (Command.prepared options settings { disk, clock }) := by
    rw [hoptions, ← Command.run_minifyUnder hfile]
    have hminify : ended = _ := Command.run_minify (s := { disk, clock }) hasks.expanded rfl
    rwa [hbeside] at hminify
  have hanswered : answered = _ := run_answer_eq_match clock log hhome hasks
  simp only [hbeside, ← hoptions] at hanswered
  -- the two runs begin in sessions that differ in their logs and in what they show
  obtain ⟨hvalue, halike⟩ := Run.uniform_process (Command.requestFor options place)
    (alike_prepared clock log hlog options settings)
  obtain ⟨hfinished, hdisk⟩ := Command.run_bind_conclude options
    (Run.process (Command.requestFor options place))
    (Command.prepared options settings { disk, clock })
  rw [← hended] at hfinished hdisk
  have hleft : ended.2.disk = answered.2.disk := by
    rw [hdisk, halike.disk, hanswered]
  refine ⟨hleft, hfinished.trans ?_⟩
  rw [← hdisk, hleft, hvalue, ← hoptions]
  refine exists_congr fun summary => and_congr_left fun _ => ?_
  rw [hanswered]
  exact Call.answered_eq_processed_iff.symm

/-- A run that finds no settings is ended by neither way with a summary, and leaves the disk. -/
theorem agree_of_failure {failure : Failure}
    (hbeside : settingsBeside disk place = .error failure) :
    let ended := (Command.minify (optionsFor source output combine laravel)).run { disk, clock }
    let answered := (Call.answer call).run { disk, clock, log }
    ended.2.disk = answered.2.disk ∧ ended.1 ≠ .ok .finished ∧
      (∀ summary, answered.1 ≠ .ok (.processed summary)) ∧
        (failure.nature = .settings → (∃ message, ended.1 = .ok (.refused 1 message)) ∧
          ∃ detail, answered.1 = .ok (.refused 400 detail)) := by
  intro ended answered
  have hended : ended = _ := Command.run_minify (s := { disk, clock }) hasks.expanded rfl
  have hanswered : answered = _ := run_answer_eq_match clock log hhome hasks
  simp only [hbeside] at hended hanswered
  -- an answer that is a failure is none that was processed
  have hnone : ∀ summary, answered.1 ≠ .ok (.processed summary) := by
    intro summary hsummary
    have hreply : answered.1 = Call.answered ((Except.error failure).map .processed) := by
      rw [hanswered]
      rfl
    cases Call.answered_eq_processed_iff.1 (hreply.symm.trans hsummary)
  by_cases hnature : failure.nature = .settings
  · rw [if_pos hnature] at hended
    refine ⟨by rw [hended, hanswered], ?_, hnone, fun _ => ⟨⟨_, by rw [hended]; rfl⟩, ?_⟩⟩
    · rw [hended]
      exact fun h => by cases h
    · refine ⟨failure.message?.getD "", ?_⟩
      simp only [hanswered, Call.answered, hnature, Call.statusOf?]
  · rw [if_neg hnature] at hended
    refine ⟨by rw [hended, hanswered], ?_, hnone, fun h => absurd h hnature⟩
    rw [hended]
    exact fun h => by cases h

end

end

/-- A call to minify what lies below the directory of `oneFile`. -/
def sourceCall : Call :=
  ⟨"POST", "/process", "\x7b\"source\": \"src\"\x7d"⟩

/-- A name with one byte more than a disk takes. -/
def longName : String :=
  String.ofList (List.replicate 256 'x')

theorem toList_longName : longName.toList = List.replicate 256 'x' :=
  String.toList_ofList

theorem longName_ne {name : String} (h : name.length ≠ 256) : longName ≠ name := by
  rintro rfl
  exact h (String.length_ofList.trans List.length_replicate)

theorem not_mem_longName {c : Char} (h : c ≠ 'x') : c ∉ longName.toList := by
  rw [toList_longName, List.mem_replicate]
  exact fun hc => h hc.2

/-- The path of that name. -/
def longOutput : Path :=
  ⟨.working, [longName]⟩

theorem isClean_longOutput : longOutput.IsClean := by
  intro name hname
  obtain rfl : name = longName := by simpa [longOutput] using hname
  exact ⟨longName_ne (by decide), longName_ne (by decide), not_mem_longName (by decide)⟩

theorem ofString_longName : Path.ofString longName = longOutput := by
  have htext : longOutput.toString = longName := by
    simp [Path.toString, longOutput, Path.anchorText]
  rw [← Path.ofString_toString isClean_longOutput, htext]

theorem hasNull_longOutput : Disk.hasNull longOutput = false := by
  simp [Disk.hasNull, longOutput, not_mem_longName]

/-- A session on one file that the rules for Laravel do not select. -/
def unselected : Session :=
  oneFile "a.php" false

/-- The settings beside that file. -/
def plainSettings : Settings where
  root := ⟨.root, ["src"]⟩

/-- That session when the settings are loaded. -/
def settled : Session :=
  { unselected with settings := some plainSettings }

/-- That file. -/
def unselectedFile : SourceFile :=
  ⟨⟨.root, ["src", "a.php"]⟩, "a.php", .php⟩

theorem expandHome_longOutput : unselected.disk.expandHome longOutput = .ok longOutput := by
  have hhome : longName ≠ "~" := longName_ne (by decide)
  simp [Disk.expandHome, longOutput, hhome, toList_longName]

theorem surveyed_longOutput :
    surveyed false (some Laravel.rules) ⟨.working, ["src"]⟩ (some longOutput) settled.view =
      .ok (longOutput, .ok [unselectedFile]) := by
  have htree : unselected.disk.IsTree := by
    decide +kernel
  have hresolve : unselected.disk.resolve longOutput = .ok ⟨.root, [longName]⟩ := by
    rw [Disk.resolve_of_isPlain htree.toIsPlain hasNull_longOutput,
      Disk.realPath_of_isPlain htree.toIsPlain (by decide) isClean_longOutput]
    decide +kernel
  have hscanned : scanned? ⟨.working, ["src"]⟩ (suffixesOf (some Laravel.rules)) [longOutput]
      settled.view = .ok (some [unselectedFile]) := by
    show filesOf? (Discovery.sourceFiles unselected.disk [] _ _ _).run.value = _
    rw [Discovery.sourceFiles, List.mapM_cons, hresolve]
    decide +kernel
  have hfound : found ⟨.working, ["src"]⟩ (suffixesOf (some Laravel.rules)) [longOutput] []
      settled.view = .ok (.ok [unselectedFile]) := by
    rw [found, hscanned]
    decide +kernel
  exact surveyed_eq_ok_iff.2 ⟨_, _, _, rfl, rfl, hfound⟩

/-- The summary of a run over that directory with that output. -/
def unselectedSummary : Summary :=
  { total := 1, skipped := 1, outputPath := some longOutput }

/-- The run ends with that summary. -/
theorem exists_gives_unselectedSummary :
    ∃ t, Gives (Run.process (Command.requestFor (optionsFor "src" (some longName) false true)
      ⟨.working, ["src"]⟩)) settled unselectedSummary t := by
  have hplanned : planned (Command.requestFor (optionsFor "src" (some longName) false true)
      ⟨.working, ["src"]⟩) ⟨.working, ["src"]⟩ plainSettings settled.view =
        .ok (.overDirectory false (some Laravel.rules) ⟨.working, ["src"]⟩ (some longOutput)) := by
    refine planned_overDirectory_iff.2 ⟨rfl, rfl, ?_, rfl, rfl⟩
    show ((unselected.disk.expandHome (Path.ofString longName)).mapError _ >>= _) = _
    rw [ofString_longName, expandHome_longOutput]
    rfl
  have hconcluded : concluded false (some Laravel.rules) longOutput settled.clock
      (settleAll false (some Laravel.rules) longOutput [unselectedFile] settled.disk) =
        .ok (unselectedSummary, settled.disk) := by
    decide +kernel
  obtain ⟨t, hgives, -⟩ := exists_gives_process_of_surveyed (by decide +kernel) rfl rfl
    (by decide) (by decide) hplanned surveyed_longOutput hconcluded
  exact ⟨t, hgives⟩

/-- The characters of a body that asks for that run. -/
def longBody : List Char :=
  "\x7b\"source\": \"src\", \"output\": \"".toList ++ List.replicate 256 'x' ++
    "\", \"framework\": \"laravel\"\x7d".toList

/-- A call that asks for that run. -/
def longCall : Call :=
  ⟨"POST", "/process", String.ofList longBody⟩

theorem toList_longCall : longCall.body.toList = longBody :=
  String.toList_ofList

theorem asksFor_longCall : longCall.AsksFor unselected.disk
    (bodyFor "src" (some longName) false true) ⟨.working, ["src"]⟩ where
  page := by decide +kernel
  method := rfl
  body := by
    rw [← toOption_eq_some_iff, Call.readBody, Call.bodyOf, Json.parse, toList_longCall]
    decide +kernel
  expanded := by decide +kernel
  there := by decide +kernel

theorem settingsBeside_unselected :
    settingsBeside unselected.disk ⟨.working, ["src"]⟩ = .ok plainSettings := by
  decide +kernel

theorem unselected_eq : unselected = { disk := unselected.disk, clock := unselected.clock } :=
  rfl

theorem settled_eq : settled = {
    disk := unselected.disk, clock := unselected.clock
    settings := some plainSettings } :=
  rfl

/-- The service answers that call with the summary. -/
theorem answer_longCall :
    ((Call.answer longCall).run unselected).1 = .ok (.processed unselectedSummary) := by
  have hanswer := run_answer_eq_match unselected.clock {} rfl asksFor_longCall
  rw [← unselected_eq, settingsBeside_unselected] at hanswer
  obtain ⟨t, hgives⟩ := exists_gives_unselectedSummary
  have hended := congrArg Prod.fst hgives
  rw [hanswer]
  dsimp only
  rw [← settled_eq, Call.answered_eq_processed_iff, hended]

/-- The summary cannot be told, as it cannot be seen whether the output is a directory. -/
theorem not_isTold_unselectedSummary (disk : Disk) :
    ¬ Command.IsTold (optionsFor "src" (some longName) false true) disk unselectedSummary := by
  intro htold
  have hseen := htold.place longOutput rfl
  rw [longOutput, Disk.isDirectory?_of_long hasNull_longOutput (longName_ne (by decide))
    (by decide +kernel)] at hseen
  cases hseen

end Minifier
