import Minifier.Proofs.Run.Settling

/-!
# What a request comes to

A request is first made into a plan: one file or the files below a directory, with the paths and the
rules that are in force (`Run.planOf`). Then the plan is carried out (`Run.process_eq_planOf`).
Making a plan changes nothing on the disk (`Run.disk_of_gives_planOf`).
-/

set_option autoImplicit false

namespace Minifier

namespace Run

open Job

variable {request : Request} {s t : Session} {summary : Summary}

/-- What a request comes to. -/
inductive Plan where
  | single (source : Path) (output : Option Path)
  | overDirectory (combine : Bool) (rules : Option RuleSet) (source : Path) (output : Option Path)
  deriving DecidableEq

/-- Carries out a plan. -/
def Plan.run : Plan → Job Summary
  | .single source output => Run.single source output
  | .overDirectory combine rules source output => Run.overDirectory combine rules source output

/-- The plan for a source that is a directory, or is not. -/
def Plan.choose (combine : Bool) (rules : Option RuleSet) (source : Path) (output : Option Path)
    (isDirectory : Bool) : Plan :=
  if isDirectory then .overDirectory combine rules source output else .single source output

/-- Makes a plan of a request under settings. -/
def planWith (request : Request) (source : Path) (settings : Settings) : Job Plan := do
  let output ← match request.output with
    | some output => do pure (some (← Job.expandHome output))
    | none => pure settings.output
  let rules ← rulesOf settings request.framework
  let isDirectory ← if rules.isSome then pure true else Job.isDirectory source
  return .choose request.combine rules source output isDirectory

/-- Makes a plan of a request. -/
def planOf (request : Request) : Job Plan := do
  let source ← Job.expandHome request.source
  let settings ← settingsFor source
  planWith request source settings

theorem process_eq_planOf (request : Request) :
    process request = planOf request >>= Plan.run := by
  have hchoose : ∀ (source : Path) (output : Option Path) (rules : Option RuleSet)
      (isDirectory : Bool),
      (if !isDirectory then single source output
        else if request.combine then combined rules source output
        else directory rules source output) =
        Plan.run (.choose request.combine rules source output isDirectory) := by
    intro source output rules isDirectory
    cases isDirectory <;> rfl
  -- without rules the plan asks first whether its source is a directory
  have hrules : ∀ (source : Path) (output : Option Path) (rules : Option RuleSet),
      (if rules.isSome then Plan.run (.choose request.combine rules source output true)
        else Job.isDirectory source >>= fun isDirectory =>
          Plan.run (.choose request.combine rules source output isDirectory)) =
        (if rules.isSome then pure (.choose request.combine rules source output true)
          else Job.isDirectory source >>= fun isDirectory =>
            pure (.choose request.combine rules source output isDirectory)) >>= Plan.run := by
    intro source output rules
    cases rules with
    | none => simp only [Option.isSome_none, Bool.false_eq_true, if_false, bind_assoc, pure_bind]
    | some rules => simp only [Option.isSome_some, if_true, pure_bind]
  rw [process, planOf, bind_assoc]
  refine bind_congr fun source => ?_
  rw [bind_assoc]
  refine bind_congr fun settings => ?_
  rw [planWith]
  cases request.output with
  | none => simp only [pure_bind, bind_assoc, hchoose, hrules]
  | some output => simp only [pure_bind, bind_assoc, hchoose, hrules]

/-! ## Reading -/

/-- The rule set that a request names, if it names one. -/
def rulesNamed (settings : Settings) (framework : Option String) :
    Except Failure (Option RuleSet) :=
  match framework with
  | none => .ok none
  | some name =>
    if name.isEmpty then .ok none else do return some (← (settings.ruleSet name).run.value)

/-- The output that a request names, or else its settings. -/
def outputNamed (request : Request) (settings : Settings) (view : View) :
    Except Failure (Option Path) :=
  match request.output with
  | some output => do return some (← (view.disk.expandHome output).mapError .path)
  | none => .ok settings.output

/-- Whether a source counts as a directory: under a rule set any does. -/
def directoryNamed (rules : Option RuleSet) (source : Path) (view : View) : Except Failure Bool :=
  match rules with
  | some _ => .ok true
  | none => (view.disk.isDirectory? source).mapError fun error => .path (.disk error)

/-- The plan of a request under settings. -/
def planned (request : Request) (source : Path) (settings : Settings) (view : View) :
    Except Failure Plan := do
  let output ← outputNamed request settings view
  let rules ← rulesNamed settings request.framework
  let isDirectory ← directoryNamed rules source view
  return .choose request.combine rules source output isDirectory

theorem reads_loggedTry {α : Type} (value : ExceptT Failure Logged α) :
    Reads (loggedTry id value) fun _ => value.run.value := by
  refine (reads_logged value.run).bind fun found => (?_ : Reads _ fun _ => found)
  cases found with
  | ok result => exact reads_pure result
  | error failure => exact reads_throw failure

theorem reads_rulesOf (settings : Settings) (framework : Option String) :
    Reads (rulesOf settings framework) fun _ => rulesNamed settings framework := by
  cases framework with
  | none => exact reads_pure none
  | some name =>
    rw [rulesOf, rulesNamed]
    cases name.isEmpty with
    | true => exact reads_pure none
    | false => exact (reads_loggedTry _).bind fun rules => reads_pure _

/-- The plan of a request under settings is known from what can be seen. -/
theorem reads_planWith (request : Request) (source : Path) (settings : Settings) :
    Reads (planWith request source settings) (planned request source settings) := by
  have hrules : ∀ output : Option Path, Reads (do
      let rules ← rulesOf settings request.framework
      let isDirectory ← if rules.isSome then pure true else Job.isDirectory source
      return Plan.choose request.combine rules source output isDirectory) fun view => (do
        let rules ← rulesNamed settings request.framework
        let isDirectory ← directoryNamed rules source view
        return Plan.choose request.combine rules source output isDirectory :
          Except Failure Plan) := by
    intro output
    refine (reads_rulesOf settings request.framework).bind fun rules => ?_
    cases rules with
    | some rules => exact (reads_pure true).bind fun _ => reads_pure _
    | none => exact (reads_ask _).bind fun _ => reads_pure _
  obtain ⟨requested, output, combine, framework⟩ := request
  cases output with
  | none => exact (reads_pure settings.output).bind hrules
  | some output =>
    have hexpand : Reads (Job.expandHome output)
        fun view => (view.disk.expandHome output).mapError .path := reads_ask _
    refine (hexpand.bind fun expanded => (reads_pure (some expanded)).bind hrules).congr
      fun view => ?_
    simp only [planned, outputNamed, bind_assoc, pure_bind]
    rfl

/-! ## Plans -/

/-- Loading settings keeps them in the session, and changes nothing else. -/
theorem disk_of_gives_settingsFor {source : Path} {settings : Settings}
    (hlog : s.log.file = none) (h : Gives (settingsFor source) s settings t) :
    t.log.file = none ∧ t.disk = s.disk := by
  have h := gives_get_bind_iff.1 h
  cases hsettings : s.settings with
  | some given =>
    simp only [hsettings] at h
    rw [(gives_pure_iff.1 h).2]
    exact ⟨hlog, rfl⟩
  | none =>
    simp only [hsettings] at h
    obtain ⟨isDirectory, u, hask, h⟩ := gives_bind_iff.1 h
    have hstill := (reads_ask _).still hlog hask
    obtain ⟨loaded, v, hload, h⟩ := gives_bind_iff.1 h
    have hstill' := hstill.trans ((reads_ask _).still hstill.log hload)
    obtain ⟨_, w, hmodify, h⟩ := gives_bind_iff.1 h
    rw [(gives_pure_iff.1 h).2, gives_modify_iff.1 hmodify]
    exact ⟨hstill'.log, hstill'.disk⟩

/-- Files go into one as a request says. -/
theorem exists_choose_of_planned {source : Path} {settings : Settings} {view : View} {plan : Plan}
    (h : planned request source settings view = .ok plan) :
    ∃ rules output isDirectory,
      plan = .choose request.combine rules source output isDirectory := by
  obtain ⟨output, -, h⟩ := bind_eq_ok_iff.1 h
  obtain ⟨rules, -, h⟩ := bind_eq_ok_iff.1 h
  obtain ⟨isDirectory, -, h⟩ := bind_eq_ok_iff.1 h
  exact ⟨rules, output, isDirectory, (Except.ok.inj h).symm⟩

/-- Making a plan leaves the disk as it is. -/
theorem disk_of_gives_planOf {plan : Plan} (hlog : s.log.file = none)
    (h : Gives (planOf request) s plan t) :
    t.log.file = none ∧ t.disk = s.disk ∧ ∃ rules source output isDirectory,
      plan = .choose request.combine rules source output isDirectory := by
  obtain ⟨source, u, hexpand, h⟩ := gives_bind_iff.1 h
  have hstill := (reads_ask _).still hlog hexpand
  obtain ⟨settings, v, hsettings, h⟩ := gives_bind_iff.1 h
  obtain ⟨hlog', hdisk'⟩ := disk_of_gives_settingsFor hstill.log hsettings
  have hreads := reads_planWith request source settings
  have hend := hreads.still hlog' h
  obtain ⟨rules, output, isDirectory, rfl⟩ :=
    exists_choose_of_planned (hreads.answer_eq hlog' h)
  exact ⟨hend.log, hend.disk.trans (hdisk'.trans hstill.disk),
    rules, source, output, isDirectory, rfl⟩

/-! ## Plans under settings that are given -/

variable {combine : Bool} {rules : Option RuleSet} {source place : Path} {output : Option Path}
  {settings : Settings} {plan : Plan} {view : View}

theorem gives_settingsFor_iff {found : Settings} (h : s.settings = some settings) :
    Gives (settingsFor source) s found t ↔ found = settings ∧ t = s := by
  rw [settingsFor, gives_get_bind_iff]
  simp only [h]
  exact gives_pure_iff

/-- Under settings that are given, a plan is known from what can be seen. -/
theorem planned_of_gives_planOf (hlog : s.log.file = none)
    (hsettings : s.settings = some settings) (h : Gives (planOf request) s plan t) :
    s.Still t ∧ ∃ source, s.disk.expandHome request.source = .ok source ∧
      planned request source settings s.view = .ok plan := by
  obtain ⟨source, u, hexpand, hrest⟩ := gives_bind_iff.1 h
  have hstill := (reads_ask _).still hlog hexpand
  obtain ⟨found, v, hfound, hwith⟩ := gives_bind_iff.1 hrest
  obtain ⟨rfl, rfl⟩ := (gives_settingsFor_iff (hstill.settings.trans hsettings)).1 hfound
  have hreads := reads_planWith request source found
  refine ⟨hstill.trans (hreads.still hstill.log hwith), source, hexpand.expandHome hlog, ?_⟩
  rw [← hstill.view_eq]
  exact hreads.answer_eq hstill.log hwith

theorem steady_planOf (hlog : s.log.file = none) (hsettings : s.settings = some settings)
    (hexpand : s.disk.expandHome request.source = .ok source)
    (h : planned request source settings s.view = .ok plan) : Steady (planOf request) s plan := by
  have hask : (s.disk.expandHome request.source).mapError Failure.path = .ok source :=
    mapError_eq_ok_iff.2 hexpand
  refine (steady_ask hlog hask).bind fun t hstill => ?_
  have hfound : Steady (settingsFor source) t settings :=
    ⟨t, (gives_settingsFor_iff (hstill.settings.trans hsettings)).2 ⟨rfl, rfl⟩, .refl hstill.log⟩
  refine hfound.bind fun u hstill' => (reads_planWith request source settings).steady hstill'.log ?_
  rw [(hstill.trans hstill').view_eq, h]

/-- What a plan to go over a directory is made of. -/
theorem planned_overDirectory_iff :
    planned request place settings view = .ok (.overDirectory combine rules source output) ↔
      request.combine = combine ∧ place = source ∧
        outputNamed request settings view = .ok output ∧
          rulesNamed settings request.framework = .ok rules ∧
            directoryNamed rules source view = .ok true := by
  constructor
  · intro h
    obtain ⟨output', houtput, h⟩ := bind_eq_ok_iff.1 h
    obtain ⟨rules', hrules, h⟩ := bind_eq_ok_iff.1 h
    obtain ⟨isDirectory, hdirectory, h⟩ := bind_eq_ok_iff.1 h
    cases isDirectory with
    | false => cases h
    | true =>
      cases h
      exact ⟨rfl, rfl, houtput, hrules, hdirectory⟩
  · rintro ⟨rfl, rfl, houtput, hrules, hdirectory⟩
    exact bind_eq_ok_iff.2 ⟨output, houtput, bind_eq_ok_iff.2 ⟨rules, hrules,
      bind_eq_ok_iff.2 ⟨true, hdirectory, rfl⟩⟩⟩

end Run

end Minifier
