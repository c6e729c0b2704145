import Mathlib.Data.List.Infix
import Minifier.Text.Search

/-!
# Laws of occurrences

`splitAt?` finds the first occurrence of a list in another one: it finds none exactly when there is
none (`splitAt?_eq_none_iff`), and what it finds ends no later than any other occurrence
(`exists_splitAt?_of_occurrence`). The markers that are looked for here begin with an element that
they have nowhere else (`StartsOnce`). Two occurrences of such a marker never overlap, so the first
one is the one that has no other in front of it (`splitAt?_eq_some_iff`), and none comes about
where a list that starts with the same element is put behind another one
(`infix_append_iff_of_startsOnce`), nor around an element that the marker does not have
(`infix_append_cons_iff_of_not_mem`).
-/

set_option autoImplicit false

namespace Minifier

universe u

section Search

variable {α : Type u} [DecidableEq α]

/-! ## A start -/

theorem dropStart?_eq_some_iff {start list rest : List α} :
    dropStart? start list = some rest ↔ list = start ++ rest := by
  fun_induction dropStart? start list with
  | case1 list => simp
  | case2 a start => simp
  | case3 start b list ih => simp [ih]
  | case4 a start b list hne =>
    constructor
    · intro h
      exact absurd h (by simp)
    · intro h
      rw [List.cons_append, List.cons.injEq] at h
      exact absurd h.1.symm hne

theorem dropStart?_eq_none_iff {start list : List α} :
    dropStart? start list = none ↔ ¬ start <+: list := by
  rw [Option.eq_none_iff_forall_ne_some]
  constructor
  · rintro h ⟨rest, rfl⟩
    exact h rest (dropStart?_eq_some_iff.2 rfl)
  · rintro h rest hrest
    exact h ⟨rest, (dropStart?_eq_some_iff.1 hrest).symm⟩

theorem isSome_dropStart? (start list : List α) :
    (dropStart? start list).isSome = start.isPrefixOf list := by
  rw [Bool.eq_iff_iff, List.isPrefixOf_iff_prefix, ← not_iff_not, ← dropStart?_eq_none_iff,
    Option.not_isSome_iff_eq_none]

/-! ## The first occurrence -/

/-- An occurrence at the start is found. -/
theorem splitAt?_of_dropStart? {needle list rest : List α}
    (h : dropStart? needle list = some rest) :
    splitAt? needle list = some ([], rest) := by
  cases list with
  | nil =>
    have hnil := dropStart?_eq_some_iff.1 h
    rw [List.nil_eq_append_iff] at hnil
    rw [splitAt?, if_pos hnil.1, hnil.2]
  | cons a list => rw [splitAt?, h]

/-- Nothing is found iff there is no occurrence. -/
theorem splitAt?_eq_none_iff {needle list : List α} :
    splitAt? needle list = none ↔ ¬ needle <:+: list := by
  induction list with
  | nil => simp [splitAt?]
  | cons a list ih =>
    rw [List.infix_cons_iff, not_or, ← ih, ← dropStart?_eq_none_iff, splitAt?]
    cases hstart : dropStart? needle (a :: list) with
    | some rest => simp
    | none => cases hrest : splitAt? needle list <;> simp

/-- The parts that are found have the occurrence between them. -/
theorem eq_append_of_splitAt? {needle list before after : List α}
    (h : splitAt? needle list = some (before, after)) :
    list = before ++ (needle ++ after) := by
  induction list generalizing before with
  | nil =>
    rw [splitAt?] at h
    split at h
    · next hnil =>
      cases h
      rw [hnil]
      rfl
    · exact absurd h (by simp)
  | cons a list ih =>
    rw [splitAt?] at h
    split at h
    · next rest hstart =>
      cases h
      rw [List.nil_append]
      exact dropStart?_eq_some_iff.1 hstart
    · split at h
      · next front back hrest =>
        cases h
        rw [ih hrest]
        rfl
      · exact absurd h (by simp)

/-- Where there is an occurrence, one is found, and no later than this one. -/
theorem exists_splitAt?_of_occurrence (front needle back : List α) :
    ∃ before after, splitAt? needle (front ++ (needle ++ back)) = some (before, after) ∧
      back <:+ after := by
  induction front with
  | nil =>
    have hstart : dropStart? needle (needle ++ back) = some back := dropStart?_eq_some_iff.2 rfl
    exact ⟨[], back, splitAt?_of_dropStart? hstart, List.suffix_rfl⟩
  | cons a front ih =>
    obtain ⟨before, after, hfound, hback⟩ := ih
    rw [List.cons_append, splitAt?]
    cases hstart : dropStart? needle (a :: (front ++ (needle ++ back))) with
    | none => exact ⟨a :: before, after, by simp [hfound], hback⟩
    | some rest =>
      -- an earlier occurrence: what follows it is longer and has the same end
      have hrest : a :: (front ++ (needle ++ back)) = needle ++ rest :=
        dropStart?_eq_some_iff.1 hstart
      have hends : back <:+ needle ++ rest := hrest ▸ ⟨a :: (front ++ needle), by simp⟩
      have hlength := congrArg List.length hrest
      refine ⟨[], rest, rfl, List.suffix_of_suffix_length_le hends (List.suffix_append _ _) ?_⟩
      simp only [List.length_cons, List.length_append] at hlength
      omega

end Search

/-! ## Markers whose occurrences never overlap -/

/-- A marker that has its first element nowhere else. -/
def StartsOnce {α : Type u} (needle : List α) : Prop :=
  ∃ a rest, needle = a :: rest ∧ a ∉ rest

section Marker

variable {α : Type u} {a : α} {needle front back before after : List α}

/-- An occurrence of a marker does not reach into a list that starts like the marker: it is over
before, or it starts in that list. -/
theorem occurrence_before_or_inside (ha : a ∉ needle)
    (h : front ++ (a :: needle ++ back) = before ++ a :: after) :
    (∃ between, before = front ++ (a :: needle ++ between) ∧ back = between ++ a :: after) ∨
      ∃ middle, front = before ++ middle ∧ a :: after = middle ++ (a :: needle ++ back) := by
  rw [List.append_eq_append_iff] at h
  rcases h with ⟨middle, rfl, hback⟩ | hinside
  · rw [List.append_eq_append_iff] at hback
    rcases hback with ⟨between, rfl, rfl⟩ | ⟨tail, hmarker, hend⟩
    · exact Or.inl ⟨between, rfl, rfl⟩
    · cases middle with
      | nil =>
        rw [List.nil_append] at hmarker
        exact Or.inr ⟨[], by simp, by rw [hend, hmarker]; rfl⟩
      | cons c middle =>
        rw [List.cons_append, List.cons.injEq] at hmarker
        cases tail with
        | nil =>
          -- the marker ends where the list starts
          rw [List.append_nil] at hmarker
          refine Or.inl ⟨[], ?_, by simpa using hend.symm⟩
          rw [← hmarker.1, ← hmarker.2, List.append_nil]
        | cons d tail =>
          -- the list starts within the marker, so the first element of the marker comes again
          rw [List.cons_append, List.cons.injEq] at hend
          refine absurd ?_ ha
          rw [hmarker.2, hend.1]
          simp
  · exact Or.inr hinside

/-- A marker occurs in two lists put together iff it occurs in one of them, if the second one
starts like the marker. -/
theorem infix_append_iff_of_startsOnce (ha : a ∉ needle) (before after : List α) :
    a :: needle <:+: before ++ a :: after ↔
      a :: needle <:+: before ∨ a :: needle <:+: a :: after := by
  constructor
  · rintro ⟨front, back, h⟩
    rw [List.append_assoc] at h
    rcases occurrence_before_or_inside ha h with ⟨between, rfl, -⟩ | ⟨middle, -, hinside⟩
    · exact Or.inl ⟨front, between, by rw [List.append_assoc]⟩
    · exact Or.inr ⟨middle, back, by rw [hinside, List.append_assoc]⟩
  · rintro (h | h)
    · exact h.trans List.infix_append_left
    · exact h.trans List.infix_append_right

/-- A list occurs around an element that it does not have only where it occurs on one side. -/
theorem infix_append_cons_iff_of_not_mem (ha : a ∉ needle) (before after : List α) :
    needle <:+: before ++ a :: after ↔ needle <:+: before ∨ needle <:+: after := by
  constructor
  · rintro ⟨front, back, h⟩
    rw [List.append_eq_append_iff] at h
    rcases h with ⟨between, rfl, -⟩ | ⟨middle, hfront, hback⟩
    · exact Or.inl ⟨front, between, rfl⟩
    · cases middle with
      | nil =>
        rw [List.append_nil] at hfront
        exact Or.inl ⟨front, [], by rw [hfront, List.append_nil]⟩
      | cons c middle =>
        -- the occurrence ends behind the element, so it starts behind it as well
        rw [List.cons_append, List.cons.injEq] at hback
        obtain ⟨rfl, rfl⟩ := hback
        rw [List.append_eq_append_iff] at hfront
        rcases hfront with ⟨start, -, rfl⟩ | ⟨inside, -, hinside⟩
        · exact absurd (List.mem_append_right start List.mem_cons_self) ha
        · cases inside with
          | nil =>
            rw [List.nil_append] at hinside
            exact absurd (hinside ▸ List.mem_cons_self) ha
          | cons d inside =>
            rw [List.cons_append, List.cons.injEq] at hinside
            exact Or.inr ⟨inside, back, by rw [hinside.2]⟩
  · rintro (h | h)
    · exact h.trans List.infix_append_left
    · exact h.trans ((List.suffix_cons a after).isInfix.trans List.infix_append_right)

/-- What is found of a marker is the occurrence that has no other one in front of it. -/
theorem splitAt?_eq_some_iff [DecidableEq α] {list : List α} (h : StartsOnce needle) :
    splitAt? needle list = some (before, after) ↔
      list = before ++ (needle ++ after) ∧ ¬ needle <:+: before := by
  obtain ⟨a, needle, rfl, ha⟩ := h
  constructor
  · intro hfound
    have hlist := eq_append_of_splitAt? hfound
    refine ⟨hlist, ?_⟩
    -- an occurrence in front would have been found, and more would have been left behind it
    rintro ⟨front, back, rfl⟩
    have hsplit : list = front ++ (a :: needle ++ (back ++ (a :: needle ++ after))) := by
      rw [hlist]
      simp
    obtain ⟨before', after', hfound', hback⟩ :=
      exists_splitAt?_of_occurrence front (a :: needle) (back ++ (a :: needle ++ after))
    rw [← hsplit, hfound, Option.some.injEq, Prod.mk.injEq] at hfound'
    have hlength := hback.length_le
    rw [← hfound'.2] at hlength
    simp only [List.length_append, List.length_cons] at hlength
    omega
  · rintro ⟨rfl, hnone⟩
    obtain ⟨before', after', hfound, hafter⟩ :=
      exists_splitAt?_of_occurrence before (a :: needle) after
    have hlist : before' ++ (a :: needle ++ after') = before ++ a :: (needle ++ after) :=
      (eq_append_of_splitAt? hfound).symm
    have hlength := hafter.length_le
    -- it is found in front, where there is none, or at this place
    rcases occurrence_before_or_inside ha hlist with
      ⟨between, hbefore, -⟩ | ⟨middle, rfl, hinside⟩
    · exact absurd ⟨before', between, by rw [hbefore, List.append_assoc]⟩ hnone
    · have hsame := congrArg List.length hinside
      simp only [List.length_cons, List.length_append] at hsame
      have hmiddle : middle = [] := List.eq_nil_of_length_eq_zero (by omega)
      rw [hmiddle, List.nil_append, List.cons_append, List.cons.injEq] at hinside
      have hend : after' = after := (List.append_cancel_left hinside.2).symm
      rw [hfound, hmiddle, List.append_nil, hend]

end Marker

end Minifier
