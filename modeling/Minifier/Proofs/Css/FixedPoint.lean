import Minifier.Proofs.Comment.Markers
import Minifier.Proofs.Css.Semicolons

/-!
# When minified CSS is a fixed point

Minifying CSS deletes comments and the semicolons before closing braces, and respaces what is left
by one rule (`minify_eq`). A second pass over a style sheet without comments deletes the semicolons
once more and changes nothing else (`minify_minify`). So one pass settles a style sheet exactly when
it has no two semicolons, with at most blanks in between, before a closing brace
(`minify_settles_iff`); `a\x7bb:c;;\x7d` has (`doubled_semicolon_needs_two_passes`).
-/

set_option autoImplicit false

namespace Minifier.Css

open Text Comment

/-- The gaps that vanish from CSS. -/
def vanishes (gap : Gap) : Bool :=
  gap.atEdge || gap.touches (oneOf ":\x7b\x7d;,")

theorem isLocal_vanishes : Gap.IsLocal vanishes :=
  Gap.isLocal_atEdge.or (Gap.isLocal_touches (oneOf ":\x7b\x7d;,"))

theorem vanishes_of_touches {gap : Gap} (h : gap.touches (oneOf ":\x7b\x7d;,") = true) :
    vanishes gap = true := by
  rw [vanishes, h, Bool.or_true]

/-- The two compactions, the collapse and the last compaction are one respacing. -/
theorem compact_collapse_compact (text : Text) :
    compact (oneOf "\x7b\x7d;,") (collapse (compact (oneOf "\x7b") (compact (oneOf ":") text))) =
      respace (spaceUnless vanishes) text := by
  rw [collapse_eq_respace,
    respace_spaceUnless_compact _ Gap.isLocal_atEdge fun _ _ => rfl,
    respace_spaceUnless_compact _
      ((Gap.isLocal_touches (oneOf "\x7b")).or Gap.isLocal_atEdge) fun _ _ => rfl,
    compact_respace_spaceUnless]
  refine respace_congr (fun gap _ => ?_) text
  have hmarks : (oneOf ":\x7b\x7d;,") =
      fun g => (oneOf ":" g || oneOf "\x7b" g) || oneOf "\x7b\x7d;," g := by
    funext g
    simp [oneOf, ofString]
    grind
  rw [spaceUnless, spaceUnless, vanishes, hmarks, ← Gap.touches_or, ← Gap.touches_or]
  cases gap.atEdge <;> simp [Bool.or_assoc]

/-- Deleting the semicolons and respacing commute. -/
theorem dropLastSemicolons_respace_vanishes (text : Text) :
    dropLastSemicolons (respace (spaceUnless vanishes) text) =
      respace (spaceUnless vanishes) (dropLastSemicolons text) := by
  refine dropLastSemicolons_respace (writesBlanks_spaceUnless vanishes)
    (isLocal_spaceUnless isLocal_vanishes) ?_ ?_ text
  · intro gap h
    rw [spaceUnless, if_pos (vanishes_of_touches (Gap.touches_of_after h (by decide)))]
  · intro gap h
    rw [spaceUnless, if_pos (vanishes_of_touches (Gap.touches_of_after h (by decide)))]

/-- Minifying CSS is one respacing of the text without comments and last semicolons. -/
theorem minify_eq (text : Text) :
    minify text =
      respace (spaceUnless vanishes) (dropLastSemicolons (stripBlocks text)) := by
  rw [minify]
  show strip (dropLastSemicolons (compact _ (collapse (compact _ (compact _ _))))) = _
  rw [compact_collapse_compact, dropLastSemicolons_respace_vanishes, strip_respace_spaceUnless]
  refine respace_congr (fun gap _ => ?_) _
  rw [spaceUnless, spaceUnless, vanishes]
  cases gap.atEdge <;> simp

/-- Minifying makes no style sheet longer. -/
theorem length_minify_le (text : Text) : (minify text).length ≤ text.length := by
  rw [minify_eq]
  calc (respace (spaceUnless vanishes) (dropLastSemicolons (stripBlocks text))).length
      ≤ (dropLastSemicolons (stripBlocks text)).length :=
        length_respace_spaceUnless_le vanishes _
    _ ≤ (stripBlocks text).length := dropLastSemicolons_length_le _
    _ ≤ text.length := length_stripBlocksFrom_le false text

/-- The ink of minified CSS. -/
theorem ink_minify {text : Text} (h : ¬ ofString "/*" <:+: text) :
    ink (minify text) = dropLastSemicolons (ink text) := by
  rw [minify_eq, ink_respace (writesBlanks_spaceUnless vanishes), ink_dropLastSemicolons,
    stripBlocks_of_not_infix h]

/-- Minifying CSS without comments brings no comment about. -/
theorem not_blockMarker_infix_minify {text : Text} (h : ¬ ofString "/*" <:+: text) :
    ¬ ofString "/*" <:+: minify text := by
  rw [minify_eq, stripBlocks_of_not_infix h]
  rw [ofString_blockMarker, not_pair_infix_iff] at h ⊢
  refine isChain_respace_spaceUnless (fun a => by simp) ?_ (isChain_dropLastSemicolons ?_ h)
  · rintro gap - hv a ha b hb ⟨rfl, rfl⟩
    rw [vanishes, Gap.atEdge_eq_false ha hb,
      Gap.touches_eq_false ha hb (by decide) (by decide)] at hv
    exact Bool.false_ne_true hv
  · rintro a b hb ⟨-, rfl⟩
    rcases hb with hblank | hbrace
    · exact ne_of_isBlank hblank (by decide) rfl
    · exact absurd hbrace (by decide)

/-- The second pass over CSS without comments deletes the semicolons that come last now. -/
theorem minify_minify {text : Text} (h : ¬ ofString "/*" <:+: text) :
    minify (minify text) =
      respace (spaceUnless vanishes) (dropLastSemicolons (dropLastSemicolons text)) := by
  rw [minify_eq (minify text), stripBlocks_of_not_infix (not_blockMarker_infix_minify h),
    minify_eq text, stripBlocks_of_not_infix h, dropLastSemicolons_respace_vanishes,
    respace_spaceUnless_idem isLocal_vanishes fun _ hgap => hgap]

/-- A semicolon stands before a closing brace in minified CSS iff it does in the ink of it. -/
theorem not_lastSemicolon_infix_minify_iff (text : Text) :
    ¬ ofString ";\x7d" <:+: minify text ↔ (ink (minify text)).IsChain NotLast := by
  rw [ofString_lastSemicolon, not_pair_infix_iff]
  constructor
  · intro h
    refine isChain_ink (p := (· = .char ';')) (fun a b ha hab => ha hab.1) h ?_
    rw [minify_eq]
    refine inkBehind_respace_spaceUnless ?_ _
    rintro gap - ⟨a, ha, rfl⟩
    exact vanishes_of_touches (Gap.touches_of_before ha (by decide))
  · refine isChain_of_ink ?_
    rintro a b (ha | hb) ⟨rfl, rfl⟩
    · exact ne_of_isBlank ha (by decide) rfl
    · exact ne_of_isBlank hb (by decide) rfl

/-- For a style sheet without comments, one pass leaves no semicolon before a closing brace iff no
two semicolons stood there, and one pass settles the style sheet iff the same holds. -/
theorem minify_settles_iff {text : Text} (h : ¬ ofString "/*" <:+: text) :
    (¬ ofString ";\x7d" <:+: minify text ↔ ¬ ofString ";;\x7d" <:+: ink text) ∧
      (minify (minify text) = minify text ↔ ¬ ofString ";;\x7d" <:+: ink text) := by
  have hink : ∀ g ∈ ink text, g.isBlank = false := fun g hg => isBlank_of_mem_ink hg
  have hlast := isChain_dropLastSemicolons_ink_iff hink
  rw [← ink_dropLastSemicolons] at hlast
  refine ⟨?_, ?_, ?_⟩
  · rw [not_lastSemicolon_infix_minify_iff, ink_minify h, ← ink_dropLastSemicolons, hlast]
  · intro hfixed
    have hagain : dropLastSemicolons (ink (minify text)) = ink (minify text) := by
      rw [← ink_minify (not_blockMarker_infix_minify h), hfixed]
    rw [dropLastSemicolons_eq_self_iff, ink_ink, ink_minify h, ← ink_dropLastSemicolons] at hagain
    exact hlast.1 hagain
  · intro hnone
    rw [minify_minify h, (dropLastSemicolons_eq_self_iff _).2 (hlast.2 hnone), minify_eq,
      stripBlocks_of_not_infix h]

/-- Single semicolons, which one pass settles. -/
theorem single_semicolons_settle :
    ¬ ofString "/*" <:+: ofString "a \x7b b : c ; \x7d" ∧
      ¬ ofString ";\x7d" <:+: minify (ofString "a \x7b b : c ; \x7d") ∧
        minify (minify (ofString "a \x7b b : c ; \x7d")) =
          minify (ofString "a \x7b b : c ; \x7d") := by
  have hcomment : ¬ ofString "/*" <:+: ofString "a \x7b b : c ; \x7d" := by decide
  have hsingle : ¬ ofString ";;\x7d" <:+: ink (ofString "a \x7b b : c ; \x7d") := by decide
  obtain ⟨hlast, hsettled⟩ := minify_settles_iff hcomment
  exact ⟨hcomment, hlast.2 hsingle, hsettled.2 hsingle⟩

/-- One of two semicolons before a closing brace is left, and goes in the second pass. -/
theorem doubled_semicolon_needs_two_passes :
    ¬ ofString "/*" <:+: ofString "a\x7bb:c;;\x7d" ∧
      ofString ";\x7d" <:+: minify (ofString "a\x7bb:c;;\x7d") ∧
        minify (minify (ofString "a\x7bb:c;;\x7d")) ≠ minify (ofString "a\x7bb:c;;\x7d") := by
  decide

end Minifier.Css
