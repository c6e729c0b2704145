import Mathlib.Data.List.Basic
import Minifier.Run.Session

/-!
# Jobs step by step

`Job.Gives` says what a job gives and which session it leaves, when it does not fail. A job of two
steps gives what its steps give one after the other (`gives_bind_iff`), so a job is taken apart
without a look at how failures are passed on. Most steps leave the meter alone
(`Job.KeepsMeter`): what they read, write and report is elsewhere in the session.
-/

set_option autoImplicit false

namespace Minifier

namespace Job

variable {α β : Type}

/-- A job that is begun in the session `s` gives `a` and leaves the session `t`. -/
def Gives (job : Job α) (s : Session) (a : α) (t : Session) : Prop :=
  job.run s = (.ok a, t)

@[simp]
theorem gives_pure_iff {a b : α} {s t : Session} :
    Gives (pure a) s b t ↔ b = a ∧ t = s := by
  constructor
  · intro h
    cases h
    exact ⟨rfl, rfl⟩
  · rintro ⟨rfl, rfl⟩
    rfl

/-- Two steps give what the second one gives from where the first one ends. -/
theorem gives_bind_iff {job : Job α} {next : α → Job β} {s u : Session} {b : β} :
    Gives (job >>= next) s b u ↔ ∃ a t, Gives job s a t ∧ Gives (next a) t b u := by
  have hrun : (job >>= next).run s =
      (ExceptT.bindCont next (job.run s).1 : StateM Session _) (job.run s).2 := rfl
  rw [Gives, hrun]
  constructor
  · intro h
    cases hjob : job.run s with
    | mk result t =>
      rw [hjob] at h
      cases result with
      | ok a => exact ⟨a, t, hjob, h⟩
      | error failure =>
        -- the failure of the first step is that of both
        have hresult : (Except.error failure, t) = (Except.ok b, u) := h
        cases hresult
  · rintro ⟨a, t, hjob, hnext⟩
    rw [show job.run s = (.ok a, t) from hjob]
    exact hnext

@[simp]
theorem not_gives_throw {failure : Failure} {a : α} {s t : Session} :
    ¬ Gives (throw failure) s a t := by
  intro h
  have hresult : (Except.error failure, s) = (Except.ok a, t) := h
  cases hresult

@[simp]
theorem gives_get_iff {s a t : Session} : Gives get s a t ↔ a = s ∧ t = s := by
  constructor
  · intro h
    cases h
    exact ⟨rfl, rfl⟩
  · rintro ⟨rfl, rfl⟩
    rfl

/-- A step that looks at the session goes on with it. -/
theorem gives_get_bind_iff {next : Session → Job β} {s t : Session} {b : β} :
    Gives (get >>= next) s b t ↔ Gives (next s) s b t := by
  rw [gives_bind_iff]
  constructor
  · rintro ⟨found, u, hget, hnext⟩
    obtain ⟨hfound, hsame⟩ := gives_get_iff.1 hget
    rwa [hfound, hsame] at hnext
  · intro hnext
    exact ⟨s, s, gives_get_iff.2 ⟨rfl, rfl⟩, hnext⟩

@[simp]
theorem gives_modify_iff {f : Session → Session} {s t : Session} {a : Unit} :
    Gives (modify f) s a t ↔ t = f s := by
  constructor
  · intro h
    cases h
    rfl
  · rintro rfl
    rfl

/-- A job that does not fail gives its value. -/
theorem gives_of_run {job : Job α} {s : Session} {a : α} (h : (job.run s).1 = .ok a) :
    Gives job s a (job.run s).2 :=
  Prod.ext h rfl

/-- A job gives at most one value and leaves at most one session. -/
theorem Gives.unique {job : Job α} {s t t' : Session} {a a' : α} (h : Gives job s a t)
    (h' : Gives job s a' t') : a = a' ∧ t = t' := by
  have hsame : (Except.ok a, t) = (Except.ok a', t') := h.symm.trans h'
  cases hsame
  exact ⟨rfl, rfl⟩

/-! ## The meter -/

/-- A job that leaves the meter as it finds it. -/
def KeepsMeter (job : Job α) : Prop :=
  ∀ ⦃s : Session⦄ ⦃a : α⦄ ⦃t : Session⦄, Gives job s a t → t.meter = s.meter

theorem keepsMeter_pure (a : α) : KeepsMeter (pure a : Job α) := by
  intro s b t h
  rw [(gives_pure_iff.1 h).2]

theorem keepsMeter_throw (failure : Failure) : KeepsMeter (throw failure : Job α) :=
  fun _ _ _ h => absurd h not_gives_throw

theorem keepsMeter_get : KeepsMeter get := by
  intro s a t h
  rw [(gives_get_iff.1 h).2]

theorem keepsMeter_modify {f : Session → Session} (hf : ∀ s, (f s).meter = s.meter) :
    KeepsMeter (modify f) := by
  intro s a t h
  rw [gives_modify_iff.1 h, hf]

theorem KeepsMeter.bind {job : Job α} {next : α → Job β} (hjob : KeepsMeter job)
    (hnext : ∀ a, KeepsMeter (next a)) : KeepsMeter (job >>= next) := by
  intro s b u h
  obtain ⟨a, t, hfirst, hsecond⟩ := gives_bind_iff.1 h
  rw [hnext a hsecond, hjob hfirst]

theorem KeepsMeter.ite {p : Prop} [Decidable p] {job job' : Job α} (hjob : KeepsMeter job)
    (hjob' : KeepsMeter job') : KeepsMeter (if p then job else job') := by
  split
  · exact hjob
  · exact hjob'

theorem keepsMeter_forM {job : α → Job Unit} (hjob : ∀ a, KeepsMeter (job a)) (list : List α) :
    KeepsMeter (list.forM job) := by
  induction list with
  | nil => exact keepsMeter_pure ()
  | cons a list ih => exact (hjob a).bind fun _ => ih

/-! ## Reports -/

theorem keepsMeter_report (record : LogRecord) : KeepsMeter (report record) :=
  keepsMeter_modify fun _ => rfl

theorem keepsMeter_note (severity : Severity) (message : String) :
    KeepsMeter (note severity message) :=
  keepsMeter_report _

theorem keepsMeter_print (text : String) : KeepsMeter (print text) :=
  keepsMeter_modify fun _ => rfl

theorem keepsMeter_logged (value : Logged α) : KeepsMeter (logged value) :=
  (keepsMeter_forM keepsMeter_report value.records).bind fun _ => keepsMeter_pure value.value

/-- Entering the records of a computation gives what it computes. -/
theorem Gives.logged {value : Logged α} {s t : Session} {a : α}
    (h : Gives (logged value) s a t) : a = value.value := by
  obtain ⟨-, u, -, hvalue⟩ := gives_bind_iff.1 h
  exact (gives_pure_iff.1 hvalue).1

/-! ## Counting files -/

/-- Counting a file moves the meter on by one. -/
theorem Gives.advance {label : String} {s t : Session} {a : Unit}
    (h : Gives (advance label) s a t) : t.meter = s.meter.advance := by
  obtain ⟨_, u, hmodify, h⟩ := gives_bind_iff.1 h
  rw [gives_modify_iff] at hmodify
  rw [gives_get_bind_iff] at h
  -- a session with a bar draws it anew, which leaves the meter as it is
  have hdraw : t.meter = u.meter := by
    cases hwidth : u.barWidth with
    | some width =>
      simp only [hwidth] at h
      exact keepsMeter_print _ h
    | none =>
      simp only [hwidth] at h
      exact keepsMeter_pure () h
  rw [hdraw, hmodify]

theorem keepsMeter_finishMeter : KeepsMeter finishMeter := by
  refine keepsMeter_get.bind fun s => ?_
  exact KeepsMeter.ite (keepsMeter_print _) (keepsMeter_pure ())

/-! ## Files -/

/-- Whether a file can be read in a session. -/
def canRead (s : Session) (path : Path) : Bool :=
  (s.disk.readProtected path).isOk

/-- Reading gives the text of a file that can be read, and nothing otherwise. -/
theorem Gives.read {path : Path} {s t : Session} {content : Option Text}
    (h : Gives (read path) s content t) :
    content.isSome = canRead s path ∧ t.meter = s.meter := by
  rw [Job.read, gives_get_bind_iff] at h
  rw [canRead]
  cases hread : s.disk.readProtected path with
  | ok bytes =>
    simp only [hread] at h
    obtain ⟨rfl, rfl⟩ := gives_pure_iff.1 h
    exact ⟨rfl, rfl⟩
  | error error =>
    simp only [hread] at h
    cases hdisk : error.isFromDisk with
    | false =>
      simp only [hdisk, Bool.not_false, if_true] at h
      obtain ⟨_, _, hthrow, -⟩ := gives_bind_iff.1 h
      exact absurd hthrow not_gives_throw
    | true =>
      simp only [hdisk, Bool.not_true, Bool.false_eq_true, if_false] at h
      obtain ⟨_, u, hnote, h⟩ := gives_bind_iff.1 h
      obtain ⟨rfl, rfl⟩ := gives_pure_iff.1 h
      exact ⟨rfl, keepsMeter_note _ _ hnote⟩

theorem keepsMeter_read (path : Path) : KeepsMeter (read path) :=
  fun _ _ _ h => h.read.2

theorem keepsMeter_write (path : Path) (content : Text) : KeepsMeter (write path content) := by
  refine keepsMeter_get.bind fun s => ?_
  cases s.disk.save path (Utf8.encode content) with
  | mk answer disk =>
    dsimp only
    refine KeepsMeter.bind (keepsMeter_modify ?_) fun _ => ?_
    · exact fun _ => rfl
    cases answer with
    | ok done => exact keepsMeter_pure true
    | error error =>
      refine KeepsMeter.ite ?_ ?_
      · exact (keepsMeter_throw _).bind fun _ =>
          (keepsMeter_note _ _).bind fun _ => keepsMeter_pure false
      · exact (keepsMeter_note _ _).bind fun _ => keepsMeter_pure false

end Job

end Minifier
