import Minifier.Proofs.Css.FixedPoint
import Minifier.Proofs.Minify.Passes

/-!
# Repeated minification of CSS converges

One pass over a style sheet can leave work for the next one: where a block comment goes, a slash and
an asterisk can come together and open another one, to any depth, and of several semicolons before a
closing brace each pass deletes the last. Both show in the result, as `/*` or `;\x7d`. A result with
neither is a fixed point, and a result with one of them gets shorter, so that all style sheets
settle (`minify_passes_converge`).
-/

set_option autoImplicit false

namespace Minifier.Css

open Text Comment

/-- What a pass deletes before it respaces: the block comments, and the semicolons that come last
then. -/
def kept (text : Text) : Text :=
  dropLastSemicolons (stripBlocks text)

theorem kept_sublist (text : Text) : (kept text).Sublist text :=
  (dropLastSemicolons_sublist _).trans (stripBlocksFrom_sublist false text)

theorem minify_eq_kept : minify = fun text => respace (spaceUnless vanishes) (kept text) :=
  funext minify_eq

/-- A pass has nothing to delete in a text iff it holds no comment, and no semicolon before a
closing brace. -/
theorem kept_eq_self_iff (text : Text) :
    kept text = text ↔ ¬ ofString "/*" <:+: text ∧ (ink text).IsChain NotLast := by
  rw [← stripBlocks_eq_self_iff, ← dropLastSemicolons_eq_self_iff]
  constructor
  · intro hkept
    -- the second deletion would have to bring back what the first one takes
    have hinside : (kept text).Sublist (stripBlocks text) := dropLastSemicolons_sublist _
    rw [hkept] at hinside
    have hcode : stripBlocks text = text :=
      (stripBlocksFrom_sublist false text).antisymm hinside
    rw [kept, hcode] at hkept
    exact ⟨hcode, hkept⟩
  · rintro ⟨hcode, hlast⟩
    rw [kept, hcode, hlast]

/-- Minifying CSS converges, to the style sheets without `/*` and `;\x7d`. -/
theorem converges_minify :
    Converges minify fun text => ¬ ofString "/*" <:+: text ∧ ¬ ofString ";\x7d" <:+: text := by
  have hspaces : Converges minify fun text => kept text = text := by
    rw [minify_eq_kept]
    exact converges_of_sublist kept_sublist isLocal_vanishes fun _ hgap => hgap
  apply hspaces.congr
  intro text
  rw [kept_eq_self_iff, not_lastSemicolon_infix_minify_iff]

/-- Whatever the number of passes so far, the next pass keeps its result iff the result holds
neither `/*` nor `;\x7d`, and makes it shorter iff it holds one of them. So every sequence of passes
reaches a fixed point. -/
theorem minify_passes_converge (text : Text) :
    (∀ k, (minify^[k + 2] text = minify^[k + 1] text ↔
          ¬ ofString "/*" <:+: minify^[k + 1] text ∧
            ¬ ofString ";\x7d" <:+: minify^[k + 1] text) ∧
        ((minify^[k + 2] text).length < (minify^[k + 1] text).length ↔
          ofString "/*" <:+: minify^[k + 1] text ∨
            ofString ";\x7d" <:+: minify^[k + 1] text)) ∧
      ∃ k ≤ (minify text).length, ∀ n ≥ k, minify^[n + 1] text = minify^[k + 1] text := by
  refine ⟨fun k => ?_, converges_minify.exists_fixed text⟩
  rw [Function.iterate_succ_apply' minify (k + 1), Function.iterate_succ_apply' minify k]
  refine ⟨converges_minify.fixed_iff _, ?_⟩
  rw [converges_minify.shorter_iff, not_and_or, not_not, not_not]

/-- A comment that comes to light when another one goes, around semicolons that go one by one. -/
example : minify^[1] (ofString "a\x7bb:c;//**/* x */;\x7d") = ofString "a\x7bb:c;/* x */\x7d" ∧
    minify^[2] (ofString "a\x7bb:c;//**/* x */;\x7d") = ofString "a\x7bb:c\x7d" := by
  decide +kernel

end Minifier.Css
