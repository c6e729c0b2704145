import Minifier.Proofs.Comment.Cut
import Minifier.Proofs.Php.FixedPoint
import Minifier.Proofs.Text.Layout

/-!
# What minified PHP consists of

Four passes make minified PHP, and what they leave can be said in one step: the ink of the code
between the comments, in a row, with one space between two neighbours that blanks stood between and
that are no punctuation (`minify_lays_out_ink`).
-/

set_option autoImplicit false

namespace Minifier.Php

open Text Comment

/-- Minified PHP is the ink of the text without its comments, with one space between two glyphs
where a blank stood and neither of them is punctuation, and nothing elsewhere. -/
theorem minify_lays_out_ink (text : Text) :
    ∃ codes, (∀ codes', SlashCut text codes' ↔ codes' = codes) ∧
      minify text = laidOut (spaceBetween "()\x7b\x7d[],;:=><") (spread keepsInk codes.flatten).2 := by
  obtain ⟨codes, hcut⟩ := exists_slashCut_iff text
  refine ⟨codes, hcut, ?_⟩
  have hcode : stripSlashComments text = codes.flatten := flatten_of_slashCut ((hcut codes).2 rfl)
  rw [minify_eq_respace, hcode]
  exact respace_touches_eq_laidOut punctuation codes.flatten

/-- A comment that stood alone between two words leaves nothing, and a line comment leaves the blank
behind it. -/
example : minify (.ofString "$a/* */ . // b\n\tc ( d )") = .ofString "$a . c(d)" := by
  decide +kernel

end Minifier.Php
