import Minifier.Proofs.Comment.Markers
import Minifier.Proofs.JavaScript.Keywords

/-!
# Minified JavaScript settles in two passes

Minifying JavaScript deletes comments, respaces what is left by one rule, and writes the spaces
behind keywords (`minify_eq`). A minified script without comment markers is a fixed point
(`minify_of_markerFree`): the second pass finds no comment, deletes the spaces behind keywords and
writes them again.

A marker can come about in the first pass, since the gap in `a / /re/` vanishes. But then no gap is
left behind any slash, the second pass deletes comments without making new neighbours of a slash,
and no marker is left (`markerFree_minify_minify`). So two passes always settle, and one pass is
enough exactly for the scripts that it leaves without markers (`minify_passes`).
-/

set_option autoImplicit false

namespace Minifier.JavaScript

open Text Comment

/-- The gaps that vanish from JavaScript. -/
def vanishes (gap : Gap) : Bool :=
  gap.atEdge || gap.run.contains (.char '\n') || gap.touches (oneOf operators)

theorem isLocal_vanishes : Gap.IsLocal vanishes :=
  (Gap.isLocal_atEdge.or (Gap.isLocal_of_run fun run => run.contains (.char '\n'))).or
    (Gap.isLocal_touches (oneOf operators))

theorem vanishes_of_touches {gap : Gap} (h : gap.touches (oneOf operators) = true) :
    vanishes gap = true := by
  rw [vanishes, h, Bool.or_true]

/-- A gap that stays as a space is no reason to vanish in the next pass. -/
theorem vanishes_space {gap : Gap} (h : vanishes gap = false) :
    vanishes { gap with run := [.char ' '] } = false := by
  have hspace : ([.char ' '] : Text).contains (.char '\n') = false := by decide
  simp only [vanishes, Bool.or_eq_false_iff] at h ⊢
  exact ⟨⟨h.1.1, hspace⟩, h.2⟩

/-- Joining lines and squeezing is one respacing. -/
theorem squeeze_joinLines (text : Text) :
    squeeze (joinLines text) =
      respace (spaceUnless fun gap => gap.atEdge || gap.run.contains (.char '\n')) text := by
  have hjoin : Gap.WritesBlanks fun gap =>
      if gap.atEdge || gap.run.contains (.char '\n') then [] else gap.run := by
    intro gap hrun
    exact isRun_ite_nil hrun _
  rw [joinLines, squeeze_eq_respace,
    respace_respace hjoin (isLocal_spaceUnless (Gap.isLocal_const false))]
  refine respace_congr (fun gap hgap => ?_) text
  rw [thenRule, spaceUnless]
  split
  · rfl
  · rw [fill_of_ne_nil _ _ _ hgap.run_ne_nil]
    rfl

/-- Minifying JavaScript is one respacing of the text without comments, and the spaces behind
keywords. -/
theorem minify_eq (text : Text) :
    minify text =
      spaceKeywords (respace (spaceUnless vanishes) (stripSlashComments text)) := by
  rw [minify]
  show strip (spaceKeywords (compact _ (squeeze (joinLines _)))) = _
  rw [squeeze_joinLines, compact_respace_spaceUnless, strip_spaceKeywords,
    strip_respace_spaceUnless]
  -- the strip comes last and adds the edges, which vanished before
  congr 1
  refine respace_congr (fun gap _ => ?_) _
  rw [spaceUnless, spaceUnless, vanishes]
  cases gap.atEdge <;> simp

theorem ink_minify (text : Text) : ink (minify text) = ink (stripSlashComments text) := by
  rw [minify_eq, ink_spaceKeywords, ink_respace (writesBlanks_spaceUnless vanishes)]

/-! ## One pass -/

/-- Minifying a minified script without markers changes nothing. -/
theorem minify_of_markerFree {text : Text} (h : MarkerFree (minify text)) :
    minify (minify text) = minify text := by
  have hparen : ∀ gap : Gap, gap.after.head? = some (.char '(') →
      spaceUnless vanishes gap = [] := by
    intro gap hgap
    have htouches : gap.touches (oneOf operators) = true := Gap.touches_of_after hgap (by decide)
    rw [spaceUnless, if_pos (vanishes_of_touches htouches)]
  calc
    minify (minify text)
        = spaceKeywords (respace (spaceUnless vanishes) (minify text)) := by
          rw [minify_eq (minify text), stripSlashComments_of_markerFree h]
    _ = spaceKeywords (respace (spaceUnless vanishes)
          (respace (spaceUnless vanishes) (stripSlashComments text))) := by
          rw [minify_eq text, respace_spaceKeywords (isLocal_spaceUnless isLocal_vanishes) hparen]
    _ = minify text := by
          rw [respace_spaceUnless_idem isLocal_vanishes fun _ => vanishes_space, ← minify_eq]

/-! ## Two passes -/

/-- No gap is left behind a slash. -/
theorem inkBehind_slash_minify (text : Text) : InkBehind (· = .char '/') (minify text) := by
  rw [minify_eq]
  refine inkBehind_spaceKeywords ?_ (inkBehind_respace_spaceUnless ?_ _)
  · rintro g hg rfl
    revert hg
    decide
  · rintro gap - ⟨a, ha, rfl⟩
    exact vanishes_of_touches (Gap.touches_of_before ha (by decide))

/-- The second pass leaves no marker. -/
theorem markerFree_minify_minify (text : Text) : MarkerFree (minify (minify text)) := by
  have hslash : InkBehind (· = .char '/') (stripSlashComments (minify text)) :=
    isChain_stripSlashComments (fun _ _ ha hslash => absurd hslash ha)
      (inkBehind_slash_minify text)
  have hink : MarkerFree (ink (stripSlashComments (minify text))) :=
    isChain_ink (fun a b ha => not_opens_of_ne_slash ha b)
      (markerFree_stripSlashComments (minify text)) hslash
  -- the second pass deletes and writes blanks only, and no marker holds a blank
  rw [← ink_minify] at hink
  refine isChain_of_ink ?_ hink
  rintro a b (ha | hb) ⟨rfl, hopens⟩
  · exact ne_of_isBlank ha (by decide) rfl
  · rcases hopens with rfl | rfl
    · exact ne_of_isBlank hb (by decide) rfl
    · exact ne_of_isBlank hb (by decide) rfl

/-- Two passes always settle a script, and one pass does so iff it leaves no comment marker. -/
theorem minify_passes (text : Text) :
    minify (minify (minify text)) = minify (minify text) ∧
      (minify (minify text) = minify text ↔
        ¬ Text.ofString "//" <:+: minify text ∧ ¬ Text.ofString "/*" <:+: minify text) := by
  rw [← markerFree_iff]
  refine ⟨minify_of_markerFree (markerFree_minify_minify text), ?_, minify_of_markerFree⟩
  intro h
  rw [← h]
  exact markerFree_minify_minify text

end Minifier.JavaScript
