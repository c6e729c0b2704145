import Minifier.Language.Sql
import Minifier.Proofs.Comment.Dashes
import Minifier.Proofs.Minify.Passes

/-!
# Repeated minification of SQL converges

Minified SQL is one line that begins with ink (`lineFeed_not_mem_minify`, `isBlank_of_head_minify`).
In such a line a dash comment opens at the front or not at all, and takes everything with it. So the
next pass finds something to delete exactly when the line holds `/*` or begins with `--`
(`stripDashComments_eq_self_iff`). Otherwise the line is a fixed point, and all statements come to
one (`minify_again_settles_or_shortens`).
-/

set_option autoImplicit false

namespace Minifier.Sql

open Text Comment

/-! ## What a line has in it to delete -/

variable {line : Text}

/-- Dashes open a comment at the front of a text that begins with ink iff they are its first two
glyphs. -/
theorem opensDashLine_iff_prefix (hhead : ∀ g ∈ line.head?, g.isBlank = false) :
    opensDashLine line = true ↔ ofString "--" <+: line := by
  rw [ofString_dashes]
  cases line with
  | nil => exact iff_of_false (by decide) (by simp)
  | cons g rest =>
    have hindent : ¬ (g = .char ' ' ∨ g = .char '\t') := by
      have hg := hhead g rfl
      rintro (rfl | rfl)
      · exact absurd hg (by decide)
      · exact absurd hg (by decide)
    rw [opensDashLine_cons, if_neg hindent, decide_eq_true_eq]
    cases rest <;> simp [eq_comm]

/-- A line that two dashes open is a comment up to its end. -/
theorem stripDashComments_of_opens (hfeed : .char '\n' ∉ line)
    (hopens : opensDashLine line = true) : stripDashComments line = [] := by
  cases line with
  | nil => exact stripDashFrom_nil .code true
  | cons g rest =>
    rw [stripDashComments, stripDashFrom_code_of_opens (by rw [hopens]; rfl)]
    exact stripDashFrom_line_of_not_mem (fun hmem => hfeed (List.mem_cons_of_mem g hmem)) false

/-- In any other line there are only block comments. -/
theorem stripDashComments_of_not_opens (hfeed : .char '\n' ∉ line)
    (hopens : opensDashLine line = false) : stripDashComments line = stripBlocks line := by
  rw [← stripDashFrom_code_of_not_mem hfeed, stripDashComments]
  cases line with
  | nil => rfl
  | cons g rest =>
    rw [stripDashFrom_code_cons, stripDashFrom_code_cons, hopens]
    rfl

/-- A line that begins with ink is kept iff it holds no `/*` and does not begin with `--`. -/
theorem stripDashComments_eq_self_iff (hfeed : .char '\n' ∉ line)
    (hhead : ∀ g ∈ line.head?, g.isBlank = false) :
    stripDashComments line = line ↔ ¬ ofString "/*" <:+: line ∧ ¬ ofString "--" <+: line := by
  rw [← opensDashLine_iff_prefix hhead]
  cases hopens : opensDashLine line with
  | true =>
    have hne : [] ≠ line := by
      rintro rfl
      exact absurd hopens (by decide)
    rw [stripDashComments_of_opens hfeed hopens]
    exact iff_of_false hne fun h => h.2 rfl
  | false =>
    rw [stripDashComments_of_not_opens hfeed hopens, stripBlocks_eq_self_iff]
    exact (and_iff_left Bool.false_ne_true).symm

/-! ## Minified SQL -/

theorem lineFeed_not_mem_minify (text : Text) : .char '\n' ∉ minify text := by
  intro hmem
  rw [minify, collapse_eq_respace] at hmem
  rcases mem_respaceFrom hmem with ⟨gap, hgap⟩ | ⟨-, hink⟩
  · rw [spaceUnless] at hgap
    split at hgap
    · cases hgap
    · exact absurd (List.mem_singleton.1 hgap) (by decide)
  · exact absurd hink (by decide)

theorem isBlank_of_head_minify (text : Text) :
    ∀ g ∈ (minify text).head?, g.isBlank = false := by
  rw [minify, collapse_eq_respace]
  exact isBlank_of_head_respace spaceUnless_of_atEdge _

/-- Minifying SQL converges, to the lines without `/*` and with no `--` at the front. -/
theorem converges_minify :
    Converges minify fun text => ¬ ofString "/*" <:+: text ∧ ¬ ofString "--" <+: text := by
  have hspaces : Converges minify fun text => stripDashComments text = text :=
    converges_of_sublist (stripDashFrom_sublist .code true) Gap.isLocal_atEdge fun _ hgap => hgap
  apply hspaces.congr
  intro text
  exact (stripDashComments_eq_self_iff (lineFeed_not_mem_minify text)
    (isBlank_of_head_minify text)).symm

/-- Minifying minified SQL again changes nothing iff it holds no `/*` and does not begin with `--`,
and makes it shorter otherwise. So every sequence of passes reaches a fixed point. -/
theorem minify_again_settles_or_shortens (text : Text) :
    (minify (minify text) = minify text ↔
        ¬ ofString "/*" <:+: minify text ∧ ¬ ofString "--" <+: minify text) ∧
      ((minify (minify text)).length < (minify text).length ↔
        ofString "/*" <:+: minify text ∨ ofString "--" <+: minify text) ∧
      ∃ k ≤ (minify text).length, ∀ n ≥ k, minify^[n + 1] text = minify^[k + 1] text := by
  refine ⟨converges_minify.fixed_iff text, ?_, converges_minify.exists_fixed text⟩
  rw [converges_minify.shorter_iff, not_and_or, not_not, not_not]

/-- Block comments that come to light one inside the other, and dashes that come to the front then:
the last pass deletes all that is left. -/
example : minify^[1] (ofString "//* a */* b */-- c\nd") = ofString "/* b */-- c d" ∧
    minify^[2] (ofString "//* a */* b */-- c\nd") = ofString "-- c d" ∧
    minify^[3] (ofString "//* a */* b */-- c\nd") = [] := by
  decide +kernel

end Minifier.Sql
