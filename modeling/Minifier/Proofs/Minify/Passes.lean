import Mathlib.Logic.Function.Iterate
import Minifier.Proofs.Text.Respacing

/-!
# Passes that converge

A pass over a text converges when it keeps some of its own results, the settled ones, and makes all
others shorter (`Converges`). Then the passes over a text come to a settled result after at most as
many more passes as the first result has glyphs, and stay there (`Converges.exists_fixed`).

The minifiers that delete some glyphs and respace what is left converge, if respacing twice is
respacing once: a result is settled exactly when there is nothing to delete in it
(`converges_of_sublist`).
-/

set_option autoImplicit false

namespace Minifier

open Text

/-- The results of a pass that are settled are kept by the next pass, and all others get shorter. -/
structure Converges (pass : Text → Text) (Settled : Text → Prop) : Prop where
  keeps : ∀ text, Settled (pass text) → pass (pass text) = pass text
  shortens : ∀ text, ¬ Settled (pass text) → (pass (pass text)).length < (pass text).length

namespace Converges

variable {pass : Text → Text} {Settled Settled' : Text → Prop}

theorem congr (h : Converges pass Settled)
    (hsettled : ∀ text, Settled' (pass text) ↔ Settled (pass text)) :
    Converges pass Settled' := by
  constructor
  · intro text hkept
    exact h.keeps text ((hsettled text).1 hkept)
  · intro text hnot
    exact h.shortens text fun hkept => hnot ((hsettled text).2 hkept)

/-- The next pass keeps a result iff it is settled. -/
theorem fixed_iff (h : Converges pass Settled) (text : Text) :
    pass (pass text) = pass text ↔ Settled (pass text) := by
  constructor
  · intro hfixed
    by_contra hnot
    have hshorter := h.shortens text hnot
    rw [hfixed] at hshorter
    exact Nat.lt_irrefl _ hshorter
  · exact h.keeps text

/-- The next pass makes a result shorter iff it is not settled. -/
theorem shorter_iff (h : Converges pass Settled) (text : Text) :
    (pass (pass text)).length < (pass text).length ↔ ¬ Settled (pass text) := by
  constructor
  · intro hshorter hsettled
    rw [h.keeps text hsettled] at hshorter
    exact Nat.lt_irrefl _ hshorter
  · exact h.shortens text

/-- Each pass that does not settle takes a glyph, so that the glyphs of the first result bound the
number of passes. -/
theorem exists_settled (h : Converges pass Settled) (text : Text) :
    ∃ k ≤ (pass text).length, Settled (pass^[k + 1] text) := by
  induction hlength : (pass text).length using Nat.strongRecOn generalizing text with
  | ind length ih =>
    by_cases hsettled : Settled (pass text)
    · exact ⟨0, Nat.zero_le length, hsettled⟩
    · have hshorter : (pass (pass text)).length < length := hlength ▸ h.shortens text hsettled
      obtain ⟨k, hk, hlater⟩ := ih _ hshorter (pass text) rfl
      refine ⟨k + 1, Nat.lt_of_le_of_lt hk hshorter, ?_⟩
      rw [Function.iterate_succ_apply]
      exact hlater

/-- A settled result stays through all further passes. -/
theorem iterate_of_settled (h : Converges pass Settled) {text : Text} {k : Nat}
    (hsettled : Settled (pass^[k + 1] text)) {n : Nat} (hn : k ≤ n) :
    pass^[n + 1] text = pass^[k + 1] text := by
  obtain ⟨more, rfl⟩ := Nat.exists_eq_add_of_le' hn
  rw [Nat.add_assoc, Function.iterate_add_apply]
  apply Function.iterate_fixed
  rw [Function.iterate_succ_apply'] at hsettled ⊢
  exact h.keeps _ hsettled

/-- Every sequence of passes reaches a fixed point. -/
theorem exists_fixed (h : Converges pass Settled) (text : Text) :
    ∃ k ≤ (pass text).length, ∀ n ≥ k, pass^[n + 1] text = pass^[k + 1] text := by
  obtain ⟨k, hk, hsettled⟩ := h.exists_settled text
  exact ⟨k, hk, fun n hn => h.iterate_of_settled hsettled hn⟩

end Converges

/-- Deleting glyphs and writing the gaps that remain as spaces converges. A result is settled when
there is nothing to delete in it. -/
theorem converges_of_sublist {keep : Text → Text} {vanishes : Gap → Bool}
    (hkeep : ∀ text, (keep text).Sublist text) (hlocal : Gap.IsLocal vanishes)
    (hspace : ∀ gap : Gap, vanishes gap = false →
      vanishes { gap with run := [.char ' '] } = false) :
    Converges (fun text => respace (spaceUnless vanishes) (keep text))
      (fun text => keep text = text) := by
  constructor
  · intro text hsettled
    show respace (spaceUnless vanishes) (keep (respace (spaceUnless vanishes) (keep text))) = _
    rw [hsettled]
    exact respace_spaceUnless_idem hlocal hspace (keep text)
  · intro text hdeletes
    generalize respace (spaceUnless vanishes) (keep text) = result at hdeletes ⊢
    have hspaces : (respace (spaceUnless vanishes) (keep result)).length ≤ (keep result).length :=
      length_respace_spaceUnless_le vanishes (keep result)
    have hdeleted : (keep result).length < result.length := by
      apply Nat.lt_of_le_of_ne (hkeep result).length_le
      intro hlength
      exact hdeletes ((hkeep result).eq_of_length hlength)
    exact Nat.lt_of_le_of_lt hspaces hdeleted

end Minifier
