import Minifier.Language.Sql
import Minifier.Proofs.Comment.Patterns
import Minifier.Proofs.Text.Layout

/-!
# What minified SQL consists of

Minified SQL is made of the code between the comments: its maximal runs of ink, with single spaces
between them (`minify_joins_runs_of_code`). Dashes are comments only where a line starts outside of
block comments; all others are code and stay. The code is also what deleting the matches of the
pattern of these comments leaves: the leftmost match is always the comment that opens first.
-/

set_option autoImplicit false

namespace Minifier.Sql

open Text Comment

/-- Minified SQL is the runs of ink of the text without its dash and block comments, with one space
between each two of them. Two dashes stand together in it iff two dashes that are in no comment
do. What is left without the comments is what deleting the matches of their pattern leaves. -/
theorem minify_joins_runs_of_code (text : Text) :
    ∃ codes, (∀ codes', DashCut text codes' ↔ codes' = codes) ∧
      minify text = [.char ' '].intercalate (inkRuns codes.flatten) ∧
      (ofString "--" <:+: minify text ↔ ofString "--" <:+: codes.flatten) ∧
      ∃ pattern, Pattern.compile dashPattern = .ok pattern ∧
        pattern.deleteAll text = codes.flatten := by
  obtain ⟨codes, hcut⟩ := exists_dashCut_iff text
  obtain ⟨pattern, hpattern, hdeletes⟩ := dashPattern_deletes
  have hcode : stripDashComments text = codes.flatten := flatten_of_dashCut ((hcut codes).2 rfl)
  have hdash : (Glyph.char '-').isBlank = false := by decide
  refine ⟨codes, hcut, ?_, ?_, pattern, hpattern, ?_⟩
  · rw [minify, hcode, collapse_eq_intercalate]
  · rw [minify, hcode]
    exact pair_infix_collapse_iff hdash hdash codes.flatten
  · rw [hdeletes, hcode]

/-- Dashes behind a block comment open no line, and those inside one are not looked at. -/
example : minify (.ofString "a -- b\n \t-- c\n/* -- */ -- d\n/*\n--*/e") =
    .ofString "a -- b -- d e" := by
  decide +kernel

end Minifier.Sql
