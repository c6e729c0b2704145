import Mathlib.Data.List.Basic
import Minifier.Log

/-!
# Answers that may fail

When a computation that may fail gives a value: every part of it then gives one.
-/

set_option autoImplicit false

namespace Minifier

variable {ε ε' α β : Type} {a : α} {b : β}

theorem bind_eq_ok_iff {answer : Except ε α} {rest : α → Except ε β} :
    (answer >>= rest) = .ok b ↔ ∃ a, answer = .ok a ∧ rest a = .ok b := by
  cases answer with
  | ok a =>
    constructor
    · exact fun h => ⟨a, rfl, h⟩
    · rintro ⟨_, ha, h⟩
      cases ha
      exact h
  | error error =>
    constructor
    · intro h
      cases h
    · rintro ⟨_, ha, -⟩
      cases ha

theorem bind_eq_error_iff {answer : Except ε α} {rest : α → Except ε β} {e : ε} :
    (answer >>= rest) = .error e ↔
      answer = .error e ∨ ∃ a, answer = .ok a ∧ rest a = .error e := by
  cases answer with
  | ok a => simp [bind, Except.bind]
  | error error => simp [bind, Except.bind]

theorem mapError_eq_ok_iff {f : ε → ε'} {answer : Except ε α} :
    answer.mapError f = .ok a ↔ answer = .ok a := by
  cases answer with
  | ok found => simp [Except.mapError]
  | error error => simp [Except.mapError]

theorem toOption_eq_some_iff {answer : Except ε α} : answer.toOption = some a ↔ answer = .ok a := by
  cases answer with
  | ok found => simp [Except.toOption]
  | error error => simp [Except.toOption]

theorem map_eq_ok_iff {f : α → β} {answer : Except ε α} :
    answer.map f = .ok b ↔ ∃ a, answer = .ok a ∧ f a = b := by
  cases answer with
  | ok found => simp [Except.map]
  | error error => simp [Except.map]

/-- Answers that are known one by one are known together. -/
theorem mapM_eq_ok {f : α → Except ε β} {g : α → β} {list : List α}
    (h : ∀ a ∈ list, f a = .ok (g a)) : list.mapM f = .ok (list.map g) := by
  induction list with
  | nil => rfl
  | cons a list ih =>
    rw [List.forall_mem_cons] at h
    rw [List.mapM_cons, h.1, ih h.2]
    rfl

theorem forall_of_mapM_eq_ok {f : α → Except ε β} {list : List α} {found : List β}
    (h : list.mapM f = .ok found) : ∀ a ∈ list, ∃ b, f a = .ok b := by
  induction list generalizing found with
  | nil => simp
  | cons a list ih =>
    rw [List.mapM_cons] at h
    obtain ⟨b, hb, h⟩ := bind_eq_ok_iff.1 h
    obtain ⟨rest, hrest, -⟩ := bind_eq_ok_iff.1 h
    rw [List.forall_mem_cons]
    exact ⟨⟨b, hb⟩, ih hrest⟩

theorem exists_mapM_eq_ok {f : α → Except ε β} {list : List α}
    (h : ∀ a ∈ list, ∃ b, f a = .ok b) : ∃ found, list.mapM f = .ok found := by
  induction list with
  | nil => exact ⟨[], rfl⟩
  | cons a list ih =>
    rw [List.forall_mem_cons] at h
    obtain ⟨b, hb⟩ := h.1
    obtain ⟨rest, hrest⟩ := ih h.2
    refine ⟨b :: rest, ?_⟩
    rw [List.mapM_cons, hb, hrest]
    rfl

/-- When answers are not known together, one of them is not known. -/
theorem exists_of_mapM_eq_error {f : α → Except ε β} {list : List α} {e : ε}
    (h : list.mapM f = .error e) : ∃ a ∈ list, f a = .error e := by
  induction list with
  | nil => cases h
  | cons a list ih =>
    rw [List.mapM_cons] at h
    rcases bind_eq_error_iff.1 h with ha | ⟨b, -, h⟩
    · exact ⟨a, List.mem_cons_self, ha⟩
    · rcases bind_eq_error_iff.1 h with hrest | ⟨rest, -, h⟩
      · obtain ⟨a', hmem, ha'⟩ := ih hrest
        exact ⟨a', List.mem_cons_of_mem _ hmem, ha'⟩
      · cases h

theorem mem_iff_of_mapM_eq_ok {f : α → Except ε β} {list : List α} {found : List β}
    (h : list.mapM f = .ok found) : b ∈ found ↔ ∃ a ∈ list, f a = .ok b := by
  induction list generalizing found with
  | nil =>
    cases h
    simp
  | cons a list ih =>
    rw [List.mapM_cons] at h
    obtain ⟨first, hfirst, h⟩ := bind_eq_ok_iff.1 h
    obtain ⟨rest, hrest, h⟩ := bind_eq_ok_iff.1 h
    cases h
    rw [List.mem_cons, ih hrest, List.exists_mem_cons_iff, hfirst, Except.ok.injEq, eq_comm]

/-- A test that is known of every member keeps those that it is true of. -/
theorem filterM_eq_ok {f : α → Except ε Bool} {p : α → Bool} {list : List α}
    (h : ∀ a ∈ list, f a = .ok (p a)) : list.filterM f = .ok (list.filter p) := by
  have haux : ∀ done : List α, list.filterAuxM f done = .ok ((list.filter p).reverse ++ done) := by
    induction list with
    | nil => exact fun done => rfl
    | cons a list ih =>
      rw [List.forall_mem_cons] at h
      intro done
      rw [List.filterAuxM, h.1]
      show list.filterAuxM f (cond (p a) (a :: done) done) = _
      rw [ih h.2]
      cases hp : p a <;> simp [hp]
  rw [List.filterM, haux]
  simp [bind, Except.bind, pure, Except.pure]

/-- A test that keeps some members of a list was known of each one. -/
theorem forall_of_filterM_eq_ok {f : α → Except ε Bool} {list kept : List α}
    (h : list.filterM f = .ok kept) : ∀ a ∈ list, ∃ b, f a = .ok b := by
  have haux : ∀ {done : List α} {kept}, list.filterAuxM f done = .ok kept →
      ∀ a ∈ list, ∃ b, f a = .ok b := by
    clear h
    induction list with
    | nil => simp
    | cons a list ih =>
      intro done kept h
      obtain ⟨b, hb, h⟩ := bind_eq_ok_iff.1 h
      rw [List.forall_mem_cons]
      exact ⟨⟨b, hb⟩, ih h⟩
  obtain ⟨kept', hkept, -⟩ := bind_eq_ok_iff.1 h
  exact haux hkept

theorem exists_filterM_eq_ok {f : α → Except ε Bool} {list : List α}
    (h : ∀ a ∈ list, ∃ b, f a = .ok b) : ∃ kept, list.filterM f = .ok kept := by
  refine ⟨_, filterM_eq_ok (p := fun a => (f a).toOption.getD false) fun a ha => ?_⟩
  obtain ⟨b, hb⟩ := h a ha
  rw [hb]
  rfl

theorem subset_of_filterM_eq_ok {f : α → Except ε Bool} {list kept : List α}
    (h : list.filterM f = .ok kept) : kept ⊆ list := by
  have hfilter : list.filterM f = .ok (list.filter fun a => (f a).toOption.getD false) :=
    filterM_eq_ok fun a ha => by
      obtain ⟨b, hb⟩ := forall_of_filterM_eq_ok h a ha
      rw [hb]
      rfl
  cases h.symm.trans hfilter
  exact List.filter_subset_self _

/-- When a computation that reports on its way gives a value, every part of it gave one. -/
theorem value_run_bind_eq_ok_iff {first : ExceptT ε Logged α} {next : α → ExceptT ε Logged β} :
    (first >>= next).run.value = .ok b ↔
      ∃ a, first.run.value = .ok a ∧ (next a).run.value = .ok b := by
  have hbind : (first >>= next).run.value = first.run.value >>= fun a => (next a).run.value := by
    rw [ExceptT.run_bind, Logged.value_bind]
    cases first.run.value <;> rfl
  rw [hbind, bind_eq_ok_iff]

end Minifier
