import Minifier.Proofs.Comment.Cut
import Minifier.Proofs.Css.FixedPoint
import Minifier.Proofs.Text.Layout

/-!
# What minified CSS consists of

Six passes make minified CSS, and what they leave can be said in one step: the ink of the code
between the comments without the semicolons that are the last before a closing brace, in a row, with
one space between two neighbours that blanks stood between and that are no punctuation
(`minify_lays_out_kept_ink`). Around a semicolon that goes, the blanks on both of its sides stood
between the neighbours (`spread_dropLastSemicolons`).
-/

set_option autoImplicit false

namespace Minifier.Css

open Text Comment

/-- The ink of a style sheet is kept, but for a semicolon whose next glyph of ink is a closing
brace. -/
def keeps (g : Glyph) (rest : Text) : Bool :=
  !g.isBlank && !(g = .char ';' && rest.find? (fun b => !b.isBlank) == some (.char '\x7d'))

theorem closesNext_eq_find? (text : Text) :
    closesNext text = (text.find? (fun b => !b.isBlank) == some (.char '\x7d')) := by
  rw [Bool.eq_iff_iff, closesNext_iff, ink, List.head?_filter, beq_iff_eq]

/-- Deleting the last semicolons deletes them from the ink, and from what stands between two glyphs
that are kept. -/
theorem spread_dropLastSemicolons (text : Text) :
    spread keepsInk (dropLastSemicolons text) =
      ((spread keeps text).1.filter Glyph.isBlank,
        (spread keeps text).2.map fun piece => (piece.1, piece.2.filter Glyph.isBlank)) := by
  induction text with
  | nil => rfl
  | cons g rest ih =>
    by_cases hlast : g = .char ';' ∧ closesNext rest = true
    · -- the semicolon goes, and belongs to what stands before the next glyph
      obtain ⟨rfl, hcloses⟩ := hlast
      have hkeeps : keeps (.char ';') rest = false := by
        rw [keeps, ← closesNext_eq_find?, hcloses]
        rfl
      rw [dropLastSemicolons_cons_of_last hcloses, ih, spread_cons_of_not_keeps hkeeps,
        List.filter_cons_of_neg (by decide)]
    · have hkeeps : keeps g rest = !g.isBlank := by
        have hstays : (g = .char ';' && closesNext rest : Bool) = false := by simpa using hlast
        rw [keeps, ← closesNext_eq_find?, hstays, Bool.not_false, Bool.and_true]
      rw [dropLastSemicolons_cons_of_kept hlast]
      cases hg : g.isBlank with
      | true =>
        rw [hg] at hkeeps
        rw [spread_cons_of_not_keeps (by simp [keepsInk, hg]), spread_cons_of_not_keeps hkeeps, ih,
          List.filter_cons_of_pos hg]
      | false =>
        rw [hg] at hkeeps
        rw [spread_cons_of_keeps (by simp [keepsInk, hg]), spread_cons_of_keeps hkeeps, ih]
        rfl

/-- What is not blank between two glyphs has no part in the space between them. -/
theorem spaceBetween_filter (marks : String) (a b : Glyph) (gap : Text) :
    spaceBetween marks a (gap.filter Glyph.isBlank) b = spaceBetween marks a gap b := by
  simp [spaceBetween]

/-- Minified CSS is the ink of the text without its comments and without every semicolon whose next
glyph of ink is a closing brace, with one space between two glyphs where a blank stood and neither
of them is punctuation, and nothing elsewhere. -/
theorem minify_lays_out_kept_ink (text : Text) :
    ∃ codes, (∀ codes', BlockCut text codes' ↔ codes' = codes) ∧
      minify text = laidOut (spaceBetween ":\x7b\x7d;,") (spread keeps codes.flatten).2 := by
  obtain ⟨codes, hcut⟩ := exists_blockCut_iff text
  refine ⟨codes, hcut, ?_⟩
  have hcode : stripBlocks text = codes.flatten := flatten_of_blockCut ((hcut codes).2 rfl)
  calc
    minify text = respace (spaceUnless vanishes) (dropLastSemicolons codes.flatten) := by
      rw [minify_eq, hcode]
    _ = laidOut (spaceBetween ":\x7b\x7d;,")
          (spread keepsInk (dropLastSemicolons codes.flatten)).2 :=
        respace_touches_eq_laidOut ":\x7b\x7d;," (dropLastSemicolons codes.flatten)
    _ = laidOut (spaceBetween ":\x7b\x7d;,") (spread keeps codes.flatten).2 := by
        rw [spread_dropLastSemicolons, laidOut_map]
        simp only [spaceBetween_filter]

/-- Of two semicolons before a closing brace the first one is kept, whose next glyph is the other
one. -/
example : minify (.ofString "a /* */ b \x7b c : d e ; /* */ ; \x7d") =
    .ofString "a b\x7bc:d e;\x7d" := by
  decide +kernel

end Minifier.Css
