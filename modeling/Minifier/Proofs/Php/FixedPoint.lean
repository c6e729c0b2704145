import Minifier.Language.Php
import Minifier.Proofs.Comment.Markers

/-!
# Minified PHP is a fixed point

Minifying PHP deletes comments and respaces what is left by one rule (`minify_eq_respace`): a gap
vanishes at an end of the text and next to punctuation, and is one space elsewhere. No slash is
punctuation and no asterisk, so the gap inside `/ /` or `/ *` stays and no marker comes about; a
second pass finds no comment and no gap to change (`minify_no_marker_and_idempotent`).
-/

set_option autoImplicit false

namespace Minifier.Php

/-- The gaps that vanish from PHP. -/
def vanishes (gap : Gap) : Bool :=
  gap.atEdge || gap.touches (Text.oneOf punctuation)

theorem isLocal_vanishes : Gap.IsLocal vanishes :=
  Gap.isLocal_atEdge.or (Gap.isLocal_touches (Text.oneOf punctuation))

/-- Minifying PHP is one respacing of the text without comments. -/
theorem minify_eq_respace (text : Text) :
    minify text = Text.respace (Text.spaceUnless vanishes) (Comment.stripSlashComments text) := by
  rw [minify, Text.collapse_eq_respace, Text.compact_respace_spaceUnless,
    Text.strip_respace_spaceUnless]
  refine Text.respace_congr (fun gap _ => ?_) _
  rw [Text.spaceUnless, Text.spaceUnless, vanishes]
  cases gap.atEdge <;> simp

/-- The gaps inside markers stay. -/
theorem vanishes_of_opens {gap : Gap} {a b : Glyph} (ha : a ∈ gap.before.head?)
    (hb : b ∈ gap.after.head?) (h : Comment.Opens a b) : vanishes gap = false := by
  have htouches : gap.touches (Text.oneOf punctuation) = false := by
    obtain ⟨rfl, rfl | rfl⟩ := h
    · exact Gap.touches_eq_false ha hb (by decide) (by decide)
    · exact Gap.touches_eq_false ha hb (by decide) (by decide)
  rw [vanishes, Gap.atEdge_eq_false ha hb, htouches, Bool.or_false]

/-- Respacing PHP without comment markers brings none about. -/
theorem markerFree_respace {text : Text} (h : Comment.MarkerFree text) :
    Comment.MarkerFree (Text.respace (Text.spaceUnless vanishes) text) := by
  refine Text.isChain_respace_spaceUnless (fun a => ⟨?_, ?_⟩) ?_ h
  · rintro ⟨-, hspace | hspace⟩ <;> simp at hspace
  · rintro ⟨hspace, -⟩
    simp at hspace
  · intro gap _ hv a ha b hb hopens
    rw [vanishes_of_opens ha hb hopens] at hv
    exact Bool.false_ne_true hv

theorem markerFree_minify (text : Text) : Comment.MarkerFree (minify text) := by
  rw [minify_eq_respace]
  exact markerFree_respace (Comment.markerFree_stripSlashComments text)

theorem minify_minify (text : Text) : minify (minify text) = minify text := by
  rw [minify_eq_respace (minify text),
    Comment.stripSlashComments_of_markerFree (markerFree_minify text), minify_eq_respace text,
    Text.respace_spaceUnless_idem isLocal_vanishes fun gap hgap => hgap]

/-- Minified PHP holds no comment marker, and minifying it again changes nothing. -/
theorem minify_no_marker_and_idempotent (text : Text) :
    (¬ Text.ofString "//" <:+: minify text ∧ ¬ Text.ofString "/*" <:+: minify text) ∧
      minify (minify text) = minify text :=
  ⟨Comment.markerFree_iff.1 (markerFree_minify text), minify_minify text⟩

end Minifier.Php
