import Minifier.Proofs.Run.Job
import Minifier.Run.Flow

/-!
# Turns

A run handles its files one after another. `turns` says which session every file finds when its
turn comes; handling all files gives what handling each of them in its turn gives, and ends with
the meter at their number (`became_of_gives_handleAll`). So a counter that depends on the outcomes
is known as soon as it is known what decides one outcome (`countP_of_became`).
-/

set_option autoImplicit false

namespace Minifier

namespace Run

open Job

/-- One file is handled and counted. -/
def turn (handle : SourceFile → Job Outcome) (file : SourceFile) : Job (SourceFile × Outcome) := do
  let outcome ← handle file
  Job.advance file.path.name
  return (file, outcome)

/-- The files, each with the session that it finds when its turn comes. -/
def turns (handle : SourceFile → Job Outcome) : List SourceFile → Session →
    List (SourceFile × Session)
  | [], _ => []
  | file :: files, s => (file, s) :: turns handle files ((turn handle file).run s).2

/-- The session in which the first of a number of files has its turn. -/
def beginTurns (files : List SourceFile) (s : Session) : Session :=
  { s with meter := Meter.start files.length }

/-- What a file became in its turn. -/
def Became (handle : SourceFile → Job Outcome) (place : SourceFile × Session)
    (result : SourceFile × Outcome) : Prop :=
  result.1 = place.1 ∧ ∃ t, Gives (handle place.1) place.2 result.2 t

theorem length_turns (handle : SourceFile → Job Outcome) (files : List SourceFile) (s : Session) :
    (turns handle files s).length = files.length := by
  induction files generalizing s with
  | nil => rfl
  | cons file files ih => rw [turns, List.length_cons, ih, List.length_cons]

/-- A turn gives what handling the file gives, and counts the file. -/
theorem became_of_gives_turn {handle : SourceFile → Job Outcome} {file : SourceFile} {s t : Session}
    {result : SourceFile × Outcome} (hkeeps : KeepsMeter (handle file))
    (h : Gives (turn handle file) s result t) :
    Became handle (file, s) result ∧ t.meter = s.meter.advance := by
  obtain ⟨outcome, u, houtcome, h⟩ := gives_bind_iff.1 h
  obtain ⟨_, v, hadvance, h⟩ := gives_bind_iff.1 h
  obtain ⟨rfl, rfl⟩ := gives_pure_iff.1 h
  exact ⟨⟨rfl, u, houtcome⟩, by rw [hadvance.advance, hkeeps houtcome]⟩

/-- Turns one after another give what each of them gives. -/
theorem became_of_gives_mapM {handle : SourceFile → Job Outcome}
    (hkeeps : ∀ file, KeepsMeter (handle file)) {files : List SourceFile} {s t : Session}
    {outcomes : List (SourceFile × Outcome)}
    (h : Gives (files.mapM (turn handle)) s outcomes t) :
    List.Forall₂ (Became handle) (turns handle files s) outcomes ∧
      t.meter = ⟨s.meter.total, s.meter.processed + files.length⟩ := by
  induction files generalizing s outcomes with
  | nil =>
    rw [List.mapM_nil] at h
    obtain ⟨rfl, rfl⟩ := gives_pure_iff.1 h
    exact ⟨List.Forall₂.nil, rfl⟩
  | cons file files ih =>
    rw [List.mapM_cons] at h
    obtain ⟨result, u, hturn, h⟩ := gives_bind_iff.1 h
    obtain ⟨results, v, hturns, h⟩ := gives_bind_iff.1 h
    obtain ⟨rfl, rfl⟩ := gives_pure_iff.1 h
    obtain ⟨hbecame, hmeter⟩ := became_of_gives_turn (hkeeps file) hturn
    obtain ⟨hrest, hmeter'⟩ := ih hturns
    -- the others begin in the session that the first turn leaves
    have hnext : ((turn handle file).run s).2 = u := congrArg Prod.snd hturn
    rw [turns, hnext]
    refine ⟨hrest.cons hbecame, ?_⟩
    rw [hmeter', hmeter, Meter.advance, List.length_cons, Nat.add_assoc, Nat.add_comm 1]

/-- Handling all files gives what each of them became in its turn, and ends with the meter at their
number. -/
theorem became_of_gives_handleAll {handle : SourceFile → Job Outcome}
    (hkeeps : ∀ file, KeepsMeter (handle file)) {files : List SourceFile} {s t : Session}
    {outcomes : List (SourceFile × Outcome)} (h : Gives (handleAll handle files) s outcomes t) :
    List.Forall₂ (Became handle) (turns handle files (beginTurns files s)) outcomes ∧
      t.meter = ⟨files.length, files.length⟩ := by
  obtain ⟨_, u, hstart, h⟩ := gives_bind_iff.1 h
  obtain rfl : u = beginTurns files s := gives_modify_iff.1 hstart
  obtain ⟨results, v, hturns, h⟩ := gives_bind_iff.1 h
  obtain ⟨_, w, hfinish, h⟩ := gives_bind_iff.1 h
  obtain ⟨rfl, rfl⟩ := gives_pure_iff.1 h
  obtain ⟨hbecame, hmeter⟩ := became_of_gives_mapM hkeeps hturns
  refine ⟨hbecame, ?_⟩
  rw [keepsMeter_finishMeter hfinish, hmeter, beginTurns, Meter.start, Nat.zero_add]

/-- What holds of one or, failing that, of the other is counted by both counts together. -/
theorem countP_or {α : Type} (p q : α → Bool) (list : List α) :
    list.countP (fun a => p a || !p a && q a) =
      list.countP p + list.countP fun a => !p a && q a := by
  induction list with
  | nil => rfl
  | cons a list ih =>
    rw [List.countP_cons, List.countP_cons, List.countP_cons, ih]
    cases p a <;> cases q a <;> simp <;> omega

/-- What decides every outcome in its turn decides how many outcomes there are of a sort. -/
theorem countP_of_became {handle : SourceFile → Job Outcome}
    {places : List (SourceFile × Session)} {outcomes : List (SourceFile × Outcome)}
    {sort : SourceFile × Session → Bool} {sort' : Outcome → Bool}
    (hsort : ∀ file s outcome t, Gives (handle file) s outcome t → sort' outcome = sort (file, s))
    (h : List.Forall₂ (Became handle) places outcomes) :
    outcomes.countP (fun result => sort' result.2) = places.countP sort := by
  induction h with
  | nil => rfl
  | cons hbecame _ ih =>
    obtain ⟨-, t, hgives⟩ := hbecame
    rw [List.countP_cons, List.countP_cons, ih, hsort _ _ _ _ hgives]

end Run

end Minifier
