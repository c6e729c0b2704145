import Minifier.Proofs.Run.Alike

/-!
# Sessions that are used again

A session without settings loads them at its first call that can, and goes by them from then on,
whatever happens to the disk between the calls. A call that cannot load settings only fails
(`Run.run_process_of_load_error`). A call that can is what it would be in a session that was given
the settings (`Run.run_process_of_load`), and all later ones are alike to calls in fresh sessions
with these settings (`Run.served_of_goesBy`). So a session that serves many calls cannot be told
from one fresh session for each of them (`Run.serveAll_splits_at_load`).
-/

set_option autoImplicit false

namespace Minifier

/-- What a session shares with others: the disk, the clock and the log. -/
structure World where
  disk : Disk
  clock : Stamp
  log : Logbook
  deriving DecidableEq

namespace Session

/-- The world that a session is in. -/
def world (s : Session) : World :=
  ⟨s.disk, s.clock, s.log⟩

/-- A session in another world. -/
def inWorld (s : Session) (world : World) : Session :=
  { s with disk := world.disk, clock := world.clock, log := world.log }

/-- A session that was given settings and has not served a call. -/
def fresh (world : World) (settings : Settings) : Session where
  disk := world.disk
  clock := world.clock
  log := world.log
  settings := some settings

/-- A session that holds settings, and no other exclusions than theirs. -/
structure GoesBy (given : Settings) (s : Session) : Prop where
  settings : s.settings = some given
  exclusions : Run.exclusionsOf s = Exclusion.parseAll given.excludePaths

variable {settings : Settings} {s t : Session}

theorem GoesBy.inWorld (h : GoesBy settings s) (world : World) :
    GoesBy settings (s.inWorld world) :=
  ⟨h.settings, h.exclusions⟩

theorem GoesBy.alike_fresh (h : GoesBy settings s) : Alike .equal settings s (fresh s.world settings) :=
  ⟨rfl, rfl, rfl, h.settings, rfl, h.exclusions, rfl⟩

theorem Alike.goesBy (h : Alike .equal settings s t) : GoesBy settings s :=
  ⟨h.settings_left, h.exclusions_left⟩

theorem Alike.world_eq (h : Alike .equal settings s t) : s.world = t.world := by
  rw [world, h.disk, h.clock, h.log, world]

end Session

namespace Run

open Job

variable {settings : Settings} {s : Session} {request : Request} {source : Path}

/-! ## Loading settings at a call -/

/-- The settings beside a source: those in it if it is a directory, or else in the one it is in. -/
def settingsBeside (disk : Disk) (source : Path) : Except Failure Settings := do
  let isDirectory ← (disk.isDirectory? source).mapError fun error => .path (.disk error)
  Settings.load disk (if isDirectory then source else source.parent)

/-- The settings that a request on a disk makes a session load. -/
def settingsAt (disk : Disk) (request : Request) : Except Failure Settings := do
  let source ← (disk.expandHome request.source).mapError .path
  settingsBeside disk source

theorem run_ask {α : Type} (question : Disk → Except Failure α) (s : Session) :
    (ask question).run s = (question s.disk, s) := by
  rw [ask, run_get_bind]
  cases question s.disk with
  | ok answer => rfl
  | error failure => rfl

/-- A session without settings keeps those that it loads. -/
theorem run_settingsFor (hsettings : s.settings = none) (source : Path) :
    (settingsFor source).run s =
      match settingsBeside s.disk source with
      | .ok settings => (.ok settings, { s with settings := some settings })
      | .error failure => (.error failure, s) := by
  rw [settingsFor, run_get_bind, settingsBeside]
  simp only [hsettings, run_bind, Job.isDirectory, run_ask]
  cases (s.disk.isDirectory? source).mapError (fun error => Failure.path (.disk error)) with
  | error failure => rfl
  | ok isDirectory =>
    have hbind : ∀ load : Bool → Except Failure Settings,
        (Except.ok isDirectory >>= load) = load isDirectory := fun _ => rfl
    simp only [hbind]
    cases Settings.load s.disk (if isDirectory then source else source.parent) with
    | error failure => rfl
    | ok settings => rfl

/-- A session without settings answers as one that was given those that the request makes it load;
where it cannot load any, it fails and stays as it is. -/
theorem run_process (hsettings : s.settings = none) (request : Request) :
    (process request).run s =
      match settingsAt s.disk request with
      | .ok settings => (process request).run { s with settings := some settings }
      | .error failure => (.error failure, s) := by
  rw [process_eq_planOf, settingsAt]
  simp only [planOf, run_bind, expandHome, run_ask]
  cases (s.disk.expandHome request.source).mapError Failure.path with
  | error failure => rfl
  | ok source =>
    have hbind : ∀ load : Path → Except Failure Settings,
        (Except.ok source >>= load) = load source := fun _ => rfl
    simp only [hbind, run_settingsFor hsettings]
    cases settingsBeside s.disk source with
    | error failure => rfl
    | ok settings => rfl

/-! ## Calls one after another -/

/-- A request, and what happens to the world before it is made. -/
structure Errand where
  change : World → World
  request : Request

/-- A call: what was asked for, in which world, the answer, and the world that was left. -/
structure Served where
  request : Request
  found : World
  answer : Except Failure Summary
  left : World
  deriving DecidableEq

/-- Serves a request. -/
def serve (request : Request) (s : Session) : Served × Session :=
  let ended := (process request).run s
  (⟨request, s.world, ended.1, ended.2.world⟩, ended.2)

/-- Serves requests one after another in one session. -/
def serveAll : List Errand → Session → List Served
  | [], _ => []
  | errand :: errands, s =>
    let served := serve errand.request (s.inWorld (errand.change s.world))
    served.1 :: serveAll errands served.2

namespace Served

variable {served : Served}

/-- What loading settings at a call gives. -/
def load (served : Served) : Except Failure Settings :=
  settingsAt served.found.disk served.request

/-- A call that fails because it could not load settings, and leaves everything as it was. -/
structure Refused (served : Served) (failure : Failure) : Prop where
  load : served.load = .error failure
  answer : served.answer = .error failure
  left : served.left = served.found

/-- A call that is what it would have been in a fresh session with these settings. -/
def AsFresh (settings : Settings) (served : Served) : Prop :=
  served = (serve served.request (Session.fresh served.found settings)).1

end Served

/-- In a session that goes by settings a call is what it is in a fresh one, and it goes by them
afterwards. -/
theorem served_of_goesBy (h : s.GoesBy settings) (request : Request) :
    (serve request s).1.AsFresh settings ∧ (serve request s).2.GoesBy settings := by
  obtain ⟨hanswer, halike⟩ := uniform_process request h.alike_fresh
  refine ⟨?_, halike.goesBy⟩
  rw [Served.AsFresh, serve, serve]
  simp only [hanswer, halike.world_eq]
  rfl

theorem serveAll_of_goesBy (h : s.GoesBy settings) (errands : List Errand) :
    ∀ served ∈ serveAll errands s, served.AsFresh settings := by
  induction errands generalizing s with
  | nil => simp [serveAll]
  | cons errand errands ih =>
    obtain ⟨hserved, hafter⟩ :=
      served_of_goesBy (h.inWorld (errand.change s.world)) errand.request
    rw [serveAll, List.forall_mem_cons]
    exact ⟨hserved, ih hafter⟩

/-- A call that cannot load settings is refused, and leaves the session as it found it. -/
theorem refused_of_load_error (hsettings : s.settings = none) {failure : Failure}
    (hload : settingsAt s.disk request = .error failure) :
    (serve request s).1.Refused failure ∧ (serve request s).2 = s := by
  have hrun := run_process hsettings request
  rw [hload] at hrun
  simp only at hrun
  rw [serve, hrun]
  exact ⟨⟨hload, rfl, rfl⟩, rfl⟩

/-- The first call that can load settings goes by them already. -/
theorem served_of_load (hsettings : s.settings = none) (hexclusions : s.exclusions = none)
    (hload : settingsAt s.disk request = .ok settings) :
    (serve request s).1.AsFresh settings ∧ (serve request s).2.GoesBy settings := by
  have hrun := run_process hsettings request
  rw [hload] at hrun
  have hgoes : Session.GoesBy settings { s with settings := some settings } :=
    ⟨rfl, by simp only [exclusionsOf, hexclusions]⟩
  have hserve : serve request s = serve request { s with settings := some settings } := by
    rw [serve, serve, hrun]
    rfl
  rw [hserve]
  exact served_of_goesBy hgoes request

/-- A session without settings and exclusions serves requests, between which its world changes in
any way. Up to the first call that can load settings, every call fails because it cannot, and
changes nothing; that call and all later ones are what they would be in fresh sessions with the
settings that it loads. -/
theorem serveAll_splits_at_load (hsettings : s.settings = none) (hexclusions : s.exclusions = none)
    (errands : List Errand) :
    ∃ before after, serveAll errands s = before ++ after ∧
      (∀ served ∈ before, ∃ failure, served.Refused failure) ∧
      ∀ first ∈ after.head?, ∃ settings, first.load = .ok settings ∧
        ∀ served ∈ after, served.AsFresh settings := by
  induction errands generalizing s with
  | nil => exact ⟨[], [], rfl, by simp, by simp⟩
  | cons errand errands ih =>
    rw [serveAll]
    -- the call finds the session as it was, in a world that may be another one
    obtain ⟨u, hu⟩ : ∃ u, u = s.inWorld (errand.change s.world) := ⟨_, rfl⟩
    have husettings : u.settings = none := by rw [hu]; exact hsettings
    have huexclusions : u.exclusions = none := by rw [hu]; exact hexclusions
    rw [← hu]
    cases hload : settingsAt u.disk errand.request with
    | error failure =>
      obtain ⟨hrefused, hsame⟩ := refused_of_load_error husettings hload
      obtain ⟨before, after, hsplit, hbefore, hafter⟩ := ih (s := u) husettings huexclusions
      refine ⟨(serve errand.request u).1 :: before, after, ?_, ?_, hafter⟩
      · simp only [hsame, hsplit, List.cons_append]
      · exact List.forall_mem_cons.2 ⟨⟨failure, hrefused⟩, hbefore⟩
    | ok settings =>
      obtain ⟨hserved, hgoes⟩ := served_of_load husettings huexclusions hload
      refine ⟨[], _, rfl, by simp, ?_⟩
      intro first hfirst
      cases hfirst
      refine ⟨settings, hload, List.forall_mem_cons.2 ⟨hserved, ?_⟩⟩
      exact serveAll_of_goesBy hgoes errands

/-- A session that holds nothing, on a disk with one file to minify. -/
def unsettled : Session where
  disk := (oneFile "a.js" false).disk
  clock := ⟨2024, 1, 1, 0, 0, 0⟩

/-- A request for that file, before which a text is written to the settings beside it. -/
def afterWriting (text : String) : Errand where
  change := fun world =>
    { world with
      disk := world.disk.put ["src", Settings.fileName]
        (.file (Utf8.encode (Text.ofString text))) }
  request := { source := ⟨.working, ["src"]⟩ }

/-- Settings that are broken at first are loaded when they are mended, and are in force from then
on, though they are broken again. -/
theorem mended_settings_stay_in_force :
    unsettled.settings = none ∧ unsettled.exclusions = none ∧
      let settings : Settings := { root := ⟨.root, ["src"]⟩, output := some ⟨.root, ["src", "out"]⟩ }
      ∃ first second third failure,
        serveAll [afterWriting "[", afterWriting "output: out", afterWriting "["] unsettled =
          [first, second, third] ∧
        first.Refused failure ∧ second.AsFresh settings ∧ third.AsFresh settings := by
  refine ⟨rfl, rfl, ?_⟩
  intro settings
  obtain ⟨before, after, hsplit, hbefore, hafter⟩ := serveAll_splits_at_load (s := unsettled) rfl rfl
    [afterWriting "[", afterWriting "output: out", afterWriting "["]
  have hthree : ∃ first second third,
      serveAll [afterWriting "[", afterWriting "output: out", afterWriting "["] unsettled =
        [first, second, third] ∧ first.load.isOk = false ∧ second.load = .ok settings :=
    ⟨_, _, _, rfl, by decide +kernel, by decide +kernel⟩
  obtain ⟨first, second, third, hserved, hbroken, hmended⟩ := hthree
  rw [hserved] at hsplit
  refine ⟨first, second, third, ?_⟩
  -- the calls part behind the first one, which alone cannot load settings
  match before, hsplit, hbefore with
  | [], hsplit, _ =>
    cases hsplit
    obtain ⟨loaded, hload, -⟩ := hafter first rfl
    rw [hload] at hbroken
    cases hbroken
  | [_], hsplit, hbefore =>
    cases hsplit
    obtain ⟨failure, hrefused⟩ := hbefore first (by simp)
    obtain ⟨loaded, hload, hall⟩ := hafter second rfl
    cases hload.symm.trans hmended
    exact ⟨failure, hserved, hrefused, hall second (by simp), hall third (by simp)⟩
  | _ :: _ :: _, hsplit, hbefore =>
    simp only [List.cons_append, List.cons.injEq] at hsplit
    obtain ⟨rfl, rfl, -⟩ := hsplit
    obtain ⟨failure, hrefused⟩ := hbefore second (by simp)
    cases hrefused.load.symm.trans hmended

end Run

end Minifier
