import Mathlib.Data.List.Basic

/-!
# How a computation may end

What can be said of a computation that may fail: its values are good, and its failures are of an
expected kind (`Meets`). A computation with a state keeps to this when it starts where an invariant
holds, and leaves the invariant in force (`Holds`). Both are closed under all the ways to put
computations together, so that each part needs one lemma.
-/

set_option autoImplicit false

namespace Minifier

variable {ε α β σ : Type} {good : α → Prop} {good' : β → Prop} {bad : ε → Prop}

/-- An answer that is good, or a failure of an expected kind. -/
def Meets (good : α → Prop) (bad : ε → Prop) : Except ε α → Prop
  | .ok a => good a
  | .error e => bad e

namespace Meets

theorem bind {answer : Except ε α} {next : α → Except ε β} (h : Meets good bad answer)
    (hnext : ∀ a, good a → Meets good' bad (next a)) : Meets good' bad (answer >>= next) := by
  cases answer with
  | ok a => exact hnext a h
  | error e => exact h

theorem ite {p : Prop} [Decidable p] {answer answer' : Except ε α} (h : p → Meets good bad answer)
    (h' : ¬ p → Meets good bad answer') : Meets good bad (if p then answer else answer') := by
  split
  · next hp => exact h hp
  · next hp => exact h' hp

theorem mono {good₂ : α → Prop} {bad₂ : ε → Prop} {answer : Except ε α} (h : Meets good bad answer)
    (hgood : ∀ a, good a → good₂ a) (hbad : ∀ e, bad e → bad₂ e) : Meets good₂ bad₂ answer := by
  cases answer with
  | ok a => exact hgood a h
  | error e => exact hbad e h

theorem map {f : α → β} {answer : Except ε α} (h : Meets good bad answer)
    (hf : ∀ a, good a → good' (f a)) : Meets good' bad (answer.map f) := by
  cases answer with
  | ok a => exact hf a h
  | error e => exact h

end Meets

/-! ## Computations with a state -/

/-- From a state in which an invariant holds, a computation gives a value with a property and leaves
the invariant in force, or it fails in an expected way. -/
def Holds (inv : σ → Prop) (bad : ε → Prop) (job : StateT σ (Except ε) α) (post : α → Prop) : Prop :=
  ∀ s, inv s → Meets (fun ended : α × σ => post ended.1 ∧ inv ended.2) bad (job.run s)

namespace Holds

variable {inv : σ → Prop} {post : α → Prop} {post' : β → Prop} {job : StateT σ (Except ε) α}
  {next : α → StateT σ (Except ε) β}

theorem pure {a : α} (h : post a) : Holds inv bad (pure a) post :=
  fun _ hinv => ⟨h, hinv⟩

theorem throw {e : ε} (h : bad e) : Holds inv bad (throw e : StateT σ (Except ε) α) post :=
  fun _ _ => h

theorem bind (hjob : Holds inv bad job post) (hnext : ∀ a, post a → Holds inv bad (next a) post') :
    Holds inv bad (job >>= next) post' := by
  intro s hinv
  exact (hjob s hinv).bind fun ended hended => hnext ended.1 hended.1 ended.2 hended.2

theorem mono {post₂ : α → Prop} (h : Holds inv bad job post) (hpost : ∀ a, post a → post₂ a) :
    Holds inv bad job post₂ :=
  fun s hinv => (h s hinv).mono (fun _ hended => ⟨hpost _ hended.1, hended.2⟩) fun _ he => he

theorem get : Holds inv bad (get : StateT σ (Except ε) σ) inv :=
  fun _ hinv => ⟨hinv, hinv⟩

theorem modify {f : σ → σ} (h : ∀ s, inv s → inv (f s)) :
    Holds inv bad (modify f : StateT σ (Except ε) Unit) fun _ => True :=
  fun s hinv => ⟨trivial, h s hinv⟩

theorem set {s : σ} (h : inv s) : Holds inv bad (set s : StateT σ (Except ε) Unit) fun _ => True :=
  fun _ _ => ⟨trivial, h⟩

theorem ite {p : Prop} [Decidable p] {job' : StateT σ (Except ε) α}
    (h : p → Holds inv bad job post) (h' : ¬ p → Holds inv bad job' post) :
    Holds inv bad (if p then job else job') post := by
  split
  · next hp => exact h hp
  · next hp => exact h' hp

/-- A computation without a state. -/
theorem lift {answer : Except ε α} (h : Meets post bad answer) :
    Holds inv bad (liftM answer : StateT σ (Except ε) α) post := by
  intro s hinv
  cases answer with
  | ok a => exact ⟨h, hinv⟩
  | error e => exact h

theorem forM {f : α → StateT σ (Except ε) Unit} {list : List α}
    (h : ∀ a ∈ list, Holds inv bad (f a) fun _ => True) :
    Holds inv bad (list.forM f) fun _ => True := by
  induction list with
  | nil => exact pure trivial
  | cons a list ih =>
    rw [List.forall_mem_cons] at h
    exact h.1.bind fun _ _ => ih h.2

theorem mapM {f : α → StateT σ (Except ε) β} {list : List α}
    (h : ∀ a ∈ list, Holds inv bad (f a) fun _ => True) :
    Holds inv bad (list.mapM f) fun _ => True := by
  induction list with
  | nil => exact pure trivial
  | cons a list ih =>
    rw [List.forall_mem_cons] at h
    rw [List.mapM_cons]
    exact h.1.bind fun b _ => (ih h.2).bind fun rest _ => pure trivial

theorem filterM {f : α → StateT σ (Except ε) Bool} {list : List α}
    (h : ∀ a ∈ list, Holds inv bad (f a) fun _ => True) :
    Holds inv bad (list.filterM f) fun _ => True := by
  have haux : ∀ done : List α, Holds inv bad (list.filterAuxM f done) fun _ => True := by
    induction list with
    | nil => exact fun done => pure trivial
    | cons a list ih =>
      rw [List.forall_mem_cons] at h
      exact fun done => h.1.bind fun kept _ => ih h.2 _
  exact (haux []).bind fun done _ => pure trivial

theorem foldlM {f : β → α → StateT σ (Except ε) β} {list : List α} {start : β}
    (h : ∀ b, ∀ a ∈ list, Holds inv bad (f b a) fun _ => True) :
    Holds inv bad (list.foldlM f start) fun _ => True := by
  induction list generalizing start with
  | nil => exact pure trivial
  | cons a list ih =>
    rw [List.foldlM_cons]
    refine (h start a List.mem_cons_self).bind fun b _ => ih fun b a ha => ?_
    exact h b a (List.mem_cons_of_mem _ ha)

end Holds

end Minifier
