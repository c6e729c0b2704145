import Minifier.Proofs.Answers
import Minifier.Proofs.Disk.Growth
import Minifier.Proofs.Run.Turns

/-!
# What the steps of a run do to the disk

When the log goes to no file, the steps of a run leave all of the session but the log, the meter and
what is printed as they find it (`Session.Still`), with the exception of writing, which saves a text
and leaves the rest (`Job.eq_of_gives_write`). `Job.Steady` says so of a step that gives a value,
and `Job.Reads` of a step whose value, if it gives one, is an answer to what it can see of the
session.
-/

set_option autoImplicit false

namespace Minifier

/-- A session after steps that keep the clock, the settings, the exclusions in force, and a log that
goes to no file. -/
structure Session.Abides (s t : Session) : Prop where
  clock : t.clock = s.clock
  settings : t.settings = s.settings
  exclusions : Run.exclusionsOf t = Run.exclusionsOf s
  log : t.log.file = none

/-- A session after steps that keep the disk as well. -/
structure Session.Still (s t : Session) : Prop extends s.Abides t where
  disk : t.disk = s.disk

variable {s t u : Session}

theorem Session.Abides.trans (hst : s.Abides t) (htu : t.Abides u) : s.Abides u :=
  ⟨htu.clock.trans hst.clock, htu.settings.trans hst.settings,
    htu.exclusions.trans hst.exclusions, htu.log⟩

theorem Session.Still.refl (hlog : s.log.file = none) : s.Still s :=
  ⟨⟨rfl, rfl, rfl, hlog⟩, rfl⟩

theorem Session.Still.trans (hst : s.Still t) (htu : t.Still u) : s.Still u :=
  ⟨hst.toAbides.trans htu.toAbides, htu.disk.trans hst.disk⟩

/-- What the steps of a run can see of a session. -/
structure View where
  disk : Disk
  clock : Stamp
  settings : Option Settings
  exclusions : List Exclusion

/-- What can be seen of a session. -/
def Session.view (s : Session) : View :=
  ⟨s.disk, s.clock, s.settings, Run.exclusionsOf s⟩

theorem Session.Still.view_eq (h : s.Still t) : t.view = s.view := by
  rw [Session.view, h.disk, h.clock, h.settings, h.exclusions, Session.view]

theorem Logbook.enter_of_no_file {book : Logbook} (h : book.file = none) (clock : Stamp)
    (record : LogRecord) (disk : Disk) :
    (book.enter clock record disk).1.file = none ∧ (book.enter clock record disk).2 = disk := by
  rw [enter, keep, h]
  cases book.accepts record with
  | true => exact ⟨rfl, rfl⟩
  | false => exact ⟨rfl, rfl⟩

namespace Job

variable {α β : Type} {job : Job α} {next : α → Job β} {a : α} {b : β} {path : Path}

/-! ## Steps that give a value -/

/-- A job gives a value and leaves the disk as it finds it. -/
def Steady (job : Job α) (s : Session) (a : α) : Prop :=
  ∃ t, Gives job s a t ∧ s.Still t

theorem Steady.unique (h : Steady job s a) {a' : α} (h' : Gives job s a' t) :
    a' = a ∧ s.Still t := by
  obtain ⟨t', hgives, hstill⟩ := h
  obtain ⟨rfl, rfl⟩ := h'.unique hgives
  exact ⟨rfl, hstill⟩

theorem steady_pure (hlog : s.log.file = none) (a : α) : Steady (pure a : Job α) s a :=
  ⟨s, gives_pure_iff.2 ⟨rfl, rfl⟩, .refl hlog⟩

theorem Steady.bind (hjob : Steady job s a) (hnext : ∀ t, s.Still t → Steady (next a) t b) :
    Steady (job >>= next) s b := by
  obtain ⟨t, hgives, hstill⟩ := hjob
  obtain ⟨u, hgives', hstill'⟩ := hnext t hstill
  exact ⟨u, gives_bind_iff.2 ⟨a, t, hgives, hgives'⟩, hstill.trans hstill'⟩

theorem steady_get_bind {next : Session → Job β} (h : Steady (next s) s b) :
    Steady (get >>= next) s b := by
  obtain ⟨t, hgives, hstill⟩ := h
  exact ⟨t, gives_get_bind_iff.2 hgives, hstill⟩

theorem steady_modify {f : Session → Session} (h : s.Still (f s)) : Steady (modify f) s () :=
  ⟨f s, gives_modify_iff.2 rfl, h⟩

theorem steady_report (hlog : s.log.file = none) (record : LogRecord) :
    Steady (report record) s () := by
  obtain ⟨hfile, hdisk⟩ := s.log.enter_of_no_file hlog s.clock record s.disk
  exact steady_modify ⟨⟨rfl, rfl, rfl, hfile⟩, hdisk⟩

theorem steady_note (hlog : s.log.file = none) (severity : Severity) (message : String) :
    Steady (note severity message) s () :=
  steady_report hlog _

theorem steady_print (hlog : s.log.file = none) (text : String) : Steady (print text) s () :=
  steady_modify ⟨⟨rfl, rfl, rfl, hlog⟩, rfl⟩

theorem steady_logged (hlog : s.log.file = none) (value : Logged α) :
    Steady (logged value) s value.value := by
  have hrecords : ∀ (records : List LogRecord) {s : Session}, s.log.file = none →
      Steady (records.forM report) s () := by
    intro records
    induction records with
    | nil => exact fun hlog => steady_pure hlog ()
    | cons record records ih =>
      exact fun hlog => (steady_report hlog record).bind fun t hstill => ih hstill.log
  exact (hrecords value.records hlog).bind fun t hstill => steady_pure hstill.log value.value

theorem steady_ask {question : Disk → Except Failure α} (hlog : s.log.file = none)
    (h : question s.disk = .ok a) : Steady (ask question) s a := by
  refine steady_get_bind ?_
  simp only [h]
  exact steady_pure hlog a

theorem steady_startMeter (hlog : s.log.file = none) (total : Nat) :
    Steady (startMeter total) s () :=
  steady_modify ⟨⟨rfl, rfl, rfl, hlog⟩, rfl⟩

theorem steady_advance (hlog : s.log.file = none) (label : String) :
    Steady (advance label) s () := by
  refine (steady_modify ⟨⟨rfl, rfl, rfl, hlog⟩, rfl⟩).bind fun t hstill => steady_get_bind ?_
  cases t.barWidth with
  | some width => exact steady_print hstill.log _
  | none => exact steady_pure hstill.log ()

theorem steady_finishMeter (hlog : s.log.file = none) : Steady finishMeter s () := by
  refine steady_get_bind ?_
  cases s.barWidth.isSome with
  | true => exact steady_print hlog _
  | false => exact steady_pure hlog ()

/-! ## Steps that only look -/

/-- A job leaves the disk as it finds it, and what it gives is an answer to what it can see; without
an answer it gives nothing. -/
def Reads (job : Job α) (answer : View → Except Failure α) : Prop :=
  ∀ s : Session, s.log.file = none →
    (∀ a, answer s.view = .ok a → Steady job s a) ∧
      ∀ a t, Gives job s a t → answer s.view = .ok a

variable {answer : View → Except Failure α} {answers : α → View → Except Failure β}

theorem Reads.steady (h : Reads job answer) (hlog : s.log.file = none)
    (hanswer : answer s.view = .ok a) : Steady job s a :=
  (h s hlog).1 a hanswer

theorem Reads.answer_eq (h : Reads job answer) (hlog : s.log.file = none)
    (hgives : Gives job s a t) : answer s.view = .ok a :=
  (h s hlog).2 a t hgives

theorem Reads.still (h : Reads job answer) (hlog : s.log.file = none)
    (hgives : Gives job s a t) : s.Still t :=
  ((h.steady hlog (h.answer_eq hlog hgives)).unique hgives).2

theorem Reads.congr (h : Reads job answer) {answer' : View → Except Failure α}
    (heq : ∀ view, answer view = answer' view) : Reads job answer' :=
  funext heq ▸ h

/-- A step that gives a value whatever it finds. -/
theorem reads_of_steady (h : ∀ s : Session, s.log.file = none → Steady job s a) :
    Reads job fun _ => .ok a := by
  intro s hlog
  refine ⟨fun a' ha => ?_, fun a' t hgives => ?_⟩
  · cases ha
    exact h s hlog
  · rw [((h s hlog).unique hgives).1]

theorem reads_pure (a : α) : Reads (pure a : Job α) fun _ => .ok a :=
  reads_of_steady fun _ hlog => steady_pure hlog a

theorem reads_note (severity : Severity) (message : String) :
    Reads (note severity message) fun _ => .ok () :=
  reads_of_steady fun _ hlog => steady_note hlog severity message

theorem reads_logged (value : Logged α) : Reads (logged value) fun _ => .ok value.value :=
  reads_of_steady fun _ hlog => steady_logged hlog value

theorem reads_throw (failure : Failure) :
    Reads (throw failure : Job α) fun _ => .error failure := by
  intro s hlog
  refine ⟨fun a ha => ?_, fun a t h => absurd h not_gives_throw⟩
  cases ha

theorem Reads.bind (hjob : Reads job answer) (hnext : ∀ a, Reads (next a) (answers a)) :
    Reads (job >>= next) fun view => answer view >>= fun a => answers a view := by
  intro s hlog
  refine ⟨fun b hb => ?_, fun b t h => ?_⟩
  · obtain ⟨a, ha, hb⟩ := bind_eq_ok_iff.1 hb
    refine (hjob.steady hlog ha).bind fun t hstill => (hnext a).steady hstill.log ?_
    rw [hstill.view_eq, hb]
  · obtain ⟨a, u, hfirst, hsecond⟩ := gives_bind_iff.1 h
    have hstill := hjob.still hlog hfirst
    have hb := (hnext a).answer_eq hstill.log hsecond
    rw [hstill.view_eq] at hb
    exact bind_eq_ok_iff.2 ⟨a, hjob.answer_eq hlog hfirst, hb⟩

/-- A step that goes on with what it sees of the session. -/
theorem reads_get_bind {next : Session → Job β} {answer : View → Except Failure β}
    (h : ∀ s, s.log.file = none → ∃ answer' : View → Except Failure β,
      Reads (next s) answer' ∧ answer' s.view = answer s.view) :
    Reads (get >>= next) answer := by
  intro s hlog
  obtain ⟨answer', hreads, hanswer⟩ := h s hlog
  refine ⟨fun b hb => ?_, fun b t hgives => ?_⟩
  · exact steady_get_bind (hreads.steady hlog (hanswer.trans hb))
  · exact hanswer.symm.trans (hreads.answer_eq hlog (gives_get_bind_iff.1 hgives))

theorem reads_ask (question : Disk → Except Failure α) :
    Reads (ask question) fun view => question view.disk := by
  refine reads_get_bind fun s _ => ⟨fun _ => question s.disk, ?_, rfl⟩
  cases question s.disk with
  | ok answer => exact reads_pure answer
  | error failure => exact reads_throw failure

theorem Gives.expandHome {place : Path} (hlog : s.log.file = none)
    (h : Gives (expandHome path) s place t) : s.disk.expandHome path = .ok place :=
  mapError_eq_ok_iff.1 ((reads_ask _).answer_eq hlog h)

theorem reads_mapM {f : α → Job β} (hf : ∀ a, Reads (f a) (answers a)) (list : List α) :
    Reads (list.mapM f) fun view => list.mapM fun a => answers a view := by
  induction list with
  | nil => exact reads_pure []
  | cons a list ih =>
    simp only [List.mapM_cons]
    exact (hf a).bind fun b => ih.bind fun rest => reads_pure (b :: rest)

theorem reads_filterM {f : α → Job Bool} {answers : α → View → Except Failure Bool}
    (hf : ∀ a, Reads (f a) (answers a)) (list : List α) :
    Reads (list.filterM f) fun view => list.filterM fun a => answers a view := by
  have haux : ∀ done : List α, Reads (list.filterAuxM f done)
      fun view => list.filterAuxM (fun a => answers a view) done := by
    induction list with
    | nil => exact fun done => reads_pure done
    | cons a list ih => exact fun done => (hf a).bind fun kept => ih _
  exact (haux []).bind fun done => reads_pure done.reverse

/-! ## Reading and writing -/

theorem steady_read (hlog : s.log.file = none)
    (h : ∀ error, s.disk.readProtected path = .error error → error.isFromDisk = true) :
    Steady (read path) s ((s.disk.readProtected path).toOption.map Utf8.decode) := by
  refine steady_get_bind ?_
  cases hread : s.disk.readProtected path with
  | ok bytes => exact steady_pure hlog _
  | error error =>
    simp only [h error hread, Bool.not_true, Bool.false_eq_true, if_false]
    exact (steady_note hlog _ _).bind fun t hstill => steady_pure hstill.log _

/-- What reading gives comes from the disk: a path that is none ends the job. -/
theorem isFromDisk_of_gives_read {content : Option Text} (h : Gives (read path) s content t) :
    ∀ error, s.disk.readProtected path = .error error → error.isFromDisk = true := by
  intro error herror
  have h := gives_get_bind_iff.1 h
  simp only [herror] at h
  cases hdisk : error.isFromDisk with
  | true => rfl
  | false =>
    simp only [hdisk, Bool.not_false, if_true] at h
    obtain ⟨_, _, hthrow, -⟩ := gives_bind_iff.1 h
    exact absurd hthrow not_gives_throw

theorem exists_gives_write {content : Text} (hlog : s.log.file = none)
    (h : ∀ error, (s.disk.save path (Utf8.encode content)).1 = .error error →
      error.isFromDisk = true) :
    ∃ t, Gives (write path content) s (s.disk.save path (Utf8.encode content)).1.isOk t ∧
      s.Abides t ∧ t.disk = (s.disk.save path (Utf8.encode content)).2 := by
  cases hsave : s.disk.save path (Utf8.encode content) with
  | mk answer disk =>
    cases answer with
    | ok done =>
      refine ⟨{ s with disk }, gives_get_bind_iff.2 ?_, ⟨rfl, rfl, rfl, hlog⟩, rfl⟩
      rw [hsave]
      exact gives_bind_iff.2 ⟨(), _, gives_modify_iff.2 rfl, gives_pure_iff.2 ⟨rfl, rfl⟩⟩
    | error error =>
      have hdisk : error.isFromDisk = true := h error (by rw [hsave])
      obtain ⟨v, hnote, hstill⟩ := steady_note (s := { s with disk }) hlog .error
        ("Failed to write " ++ path.toString ++ ": " ++ error.name)
      refine ⟨v, gives_get_bind_iff.2 ?_,
        ⟨hstill.clock, hstill.settings, hstill.exclusions, hstill.log⟩, hstill.disk⟩
      rw [hsave]
      refine gives_bind_iff.2 ⟨(), _, gives_modify_iff.2 rfl, ?_⟩
      simp only [hdisk, Bool.not_true, Bool.false_eq_true, if_false]
      exact gives_bind_iff.2 ⟨(), v, hnote, gives_pure_iff.2 ⟨rfl, rfl⟩⟩

theorem isFromDisk_of_gives_write {content : Text} {written : Bool}
    (h : Gives (write path content) s written t) :
    ∀ error, (s.disk.save path (Utf8.encode content)).1 = .error error →
      error.isFromDisk = true := by
  intro error herror
  have h := gives_get_bind_iff.1 h
  cases hsave : s.disk.save path (Utf8.encode content) with
  | mk answer disk =>
    rw [hsave] at h herror
    obtain rfl : answer = .error error := herror
    obtain ⟨_, v, -, h⟩ := gives_bind_iff.1 h
    cases hfrom : error.isFromDisk with
    | true => rfl
    | false =>
      simp only [hfrom, Bool.not_false, if_true] at h
      obtain ⟨_, _, hthrow, -⟩ := gives_bind_iff.1 h
      exact absurd hthrow not_gives_throw

/-- Writing saves the text, and says whether it could. -/
theorem eq_of_gives_write {content : Text} {written : Bool} (hlog : s.log.file = none)
    (h : Gives (write path content) s written t) :
    written = (s.disk.save path (Utf8.encode content)).1.isOk ∧ s.Abides t ∧
      t.disk = (s.disk.save path (Utf8.encode content)).2 := by
  obtain ⟨u, hgives, habides, hsaved⟩ := exists_gives_write hlog (isFromDisk_of_gives_write h)
  obtain ⟨rfl, rfl⟩ := h.unique hgives
  exact ⟨rfl, habides, hsaved⟩

end Job

end Minifier
