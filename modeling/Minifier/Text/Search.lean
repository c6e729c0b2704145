import Minifier.Text.Glyph

/-!
# Occurrences

`dropStart?` removes a given start of a list; `splitAt?` cuts a list at the first occurrence of
another one and leaves the occurrence out. The length lemmas bound recursions on what remains.
-/

set_option autoImplicit false

namespace Minifier

universe u

variable {α : Type u} [DecidableEq α]

/-- What follows `start` in a list that begins with it. -/
def dropStart? : List α → List α → Option (List α)
  | [], list => some list
  | _ :: _, [] => none
  | a :: start, b :: list => if a = b then dropStart? start list else none

/-- The parts of a list before and after the first occurrence of `needle`. -/
def splitAt? (needle : List α) : List α → Option (List α × List α)
  | [] => if needle = [] then some ([], []) else none
  | a :: list =>
    match dropStart? needle (a :: list) with
    | some after => some ([], after)
    | none =>
      match splitAt? needle list with
      | some (before, after) => some (a :: before, after)
      | none => none

/-- What remains of a list after a given start is no longer than the list. -/
theorem dropStart?_length {start list rest : List α} (h : dropStart? start list = some rest) :
    start.length + rest.length = list.length := by
  fun_induction dropStart? start list with
  | case1 => simp_all
  | case2 => simp at h
  | case3 => grind
  | case4 => simp at h

/-- The two parts and the occurrence between them make up the list. -/
theorem splitAt?_length {needle list before after : List α}
    (h : splitAt? needle list = some (before, after)) :
    before.length + needle.length + after.length = list.length := by
  induction list generalizing before after with
  | nil =>
    simp only [splitAt?] at h
    split at h <;> simp_all
  | cons a list ih =>
    simp only [splitAt?] at h
    split at h
    · next rest hs =>
      have := dropStart?_length hs
      simp_all
    · split at h
      · next b r hs =>
        have length := ih hs
        simp only [Option.some.injEq, Prod.mk.injEq] at h
        obtain ⟨rfl, rfl⟩ := h
        simp only [List.length_cons]
        omega
      · simp at h

end Minifier
