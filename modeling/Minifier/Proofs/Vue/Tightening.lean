import Minifier.Language.Vue
import Minifier.Proofs.Text.Closing
import Minifier.Proofs.Text.Occurrence

/-!
# Tightening a component

Three passes take gaps from a component: the gaps behind opening template tags, those before closing
ones, and those between two tags. Each of them reads what the one before has left. All the same the
gaps that they take are those that the original text shows to be loose (`tighten_eq_tightened`):
a gap is taken behind a `>` or before a `<` only, and no `>` stands in a tag other than as its end
and no `<` other than as its start. For the same reason tags neither come about nor get lost
(`infix_tightened_iff`).
-/

set_option autoImplicit false

namespace Minifier.Vue

open Text

/-! ## Loose gaps -/

/-- Whether a gap stands directly behind an opening template tag. -/
def afterTemplateStart (gap : Gap) : Bool :=
  (Text.ofString "<template>").reverse.isPrefixOf gap.before

/-- Whether a gap stands directly before a closing template tag. -/
def beforeTemplateEnd (gap : Gap) : Bool :=
  (Text.ofString "</template>").isPrefixOf gap.after

/-- Whether a gap stands between the end of a tag and the start of another one. -/
def betweenTags (gap : Gap) : Bool :=
  [Glyph.char '>'].reverse.isPrefixOf gap.before && [Glyph.char '<'].isPrefixOf gap.after

/-- Whether a gap stands at the edge of a template or between two tags. -/
def isLoose (gap : Gap) : Bool :=
  afterTemplateStart gap || beforeTemplateEnd gap || betweenTags gap

/-- A text without its loose gaps. -/
def tightened (text : Text) : Text :=
  text.respace (closing isLoose)

/-! ## The passes as rules -/

theorem head?_beq_some (text : Text) (g : Glyph) :
    (text.head? == some g) = [g].isPrefixOf text := by
  cases text with
  | nil => rfl
  | cons first rest => simp [List.isPrefixOf, eq_comm]

theorem trimTemplateStart_eq_respace (text : Text) :
    trimTemplateStart text = text.respace (closing afterTemplateStart) := by
  simp only [trimTemplateStart, isSome_dropStart?]
  rfl

theorem trimTemplateEnd_eq_respace (text : Text) :
    trimTemplateEnd text = text.respace (closing beforeTemplateEnd) := by
  simp only [trimTemplateEnd, isSome_dropStart?]
  rfl

theorem joinTags_eq_respace (text : Text) : joinTags text = text.respace (closing betweenTags) := by
  simp only [joinTags, head?_beq_some]
  rfl

/-! ## Tags are firm -/

/-- Two glyphs that can be neighbours in one tag. -/
def WithinTag (a b : Glyph) : Prop :=
  a ≠ .char '>' ∧ b ≠ .char '<'

instance : DecidableRel WithinTag :=
  fun a b => inferInstanceAs (Decidable (a ≠ .char '>' ∧ b ≠ .char '<'))

theorem closesApart_of_tagEnd {closes : Gap → Bool}
    (h : ∀ gap, closes gap = true → [Glyph.char '>'] <+: gap.before) :
    ClosesApart WithinTag closes := by
  intro gap _ hcloses a ha b _ hwithin
  obtain ⟨others, hbefore⟩ := h gap hcloses
  rw [← hbefore] at ha
  obtain rfl : Glyph.char '>' = a := Option.some.inj ha
  exact hwithin.1 rfl

theorem closesApart_of_tagStart {closes : Gap → Bool}
    (h : ∀ gap, closes gap = true → [Glyph.char '<'] <+: gap.after) :
    ClosesApart WithinTag closes := by
  intro gap _ hcloses a _ b hb hwithin
  obtain ⟨others, hafter⟩ := h gap hcloses
  rw [← hafter] at hb
  obtain rfl : Glyph.char '<' = b := Option.some.inj hb
  exact hwithin.2 rfl

theorem closesApart_afterTemplateStart : ClosesApart WithinTag afterTemplateStart := by
  apply closesApart_of_tagEnd
  intro gap hcloses
  have hend : [Glyph.char '>'] <+: (Text.ofString "<template>").reverse := by decide
  exact hend.trans (List.isPrefixOf_iff_prefix.1 hcloses)

theorem closesApart_beforeTemplateEnd : ClosesApart WithinTag beforeTemplateEnd := by
  apply closesApart_of_tagStart
  intro gap hcloses
  have hstart : [Glyph.char '<'] <+: Text.ofString "</template>" := by decide
  exact hstart.trans (List.isPrefixOf_iff_prefix.1 hcloses)

theorem closesApart_betweenTags : ClosesApart WithinTag betweenTags := by
  apply closesApart_of_tagStart
  intro gap hcloses
  exact List.isPrefixOf_iff_prefix.1 (Bool.and_eq_true_iff.1 hcloses).2

theorem closesApart_isLoose : ClosesApart WithinTag isLoose :=
  (closesApart_afterTemplateStart.or closesApart_beforeTemplateEnd).or closesApart_betweenTags

theorem seesFirm_afterTemplateStart : SeesFirm WithinTag afterTemplateStart :=
  seesFirm_before ⟨by decide, by decide⟩

theorem seesFirm_beforeTemplateEnd : SeesFirm WithinTag beforeTemplateEnd :=
  seesFirm_after ⟨by decide, by decide⟩

theorem seesFirm_betweenTags : SeesFirm WithinTag betweenTags :=
  (seesFirm_before (firm_singleton (by decide))).and (seesFirm_after (firm_singleton (by decide)))

theorem seesFirm_isLoose : SeesFirm WithinTag isLoose :=
  (seesFirm_afterTemplateStart.or seesFirm_beforeTemplateEnd).or seesFirm_betweenTags

/-! ## Tightening at once -/

/-- The three passes delete the gaps that are loose in the text as it is given, and no others. -/
theorem tighten_eq_tightened (text : Text) : tighten text = tightened text := by
  -- a pass looks for tags next to a gap, and those the passes before it leave as they were
  have hfirst := closesApart_afterTemplateStart
  have hsecond := hfirst.or closesApart_beforeTemplateEnd
  rw [tighten, trimTemplateStart_eq_respace, trimTemplateEnd_eq_respace, joinTags_eq_respace,
    respace_closing_closing hfirst seesFirm_beforeTemplateEnd,
    respace_closing_closing hsecond seesFirm_betweenTags]
  rfl

/-- Deleting loose gaps brings no word about that a tag can have, and loses none. -/
theorem infix_tightened_iff {word : Text} (hword : Firm WithinTag word) (hne : word ≠ [])
    (text : Text) : word <:+: tightened text ↔ word <:+: text :=
  hword.infix_respace_closing_iff hne closesApart_isLoose text

/-- Stripping a tightened text brings no word about that a tag can have, and loses none. -/
theorem infix_strip_tightened_iff {word : Text} (hword : Firm WithinTag word) (hne : word ≠ [])
    (text : Text) : word <:+: (tightened text).strip ↔ word <:+: text := by
  rw [tightened, strip_respace_closing]
  exact hword.infix_respace_closing_iff hne (closesApart_isLoose.or (closesApart_atEdge _)) text

/-- Closing loose gaps where loose gaps and the gaps at the ends are closed already changes
nothing. -/
theorem tightened_strip_tightened (text : Text) :
    tightened (tightened text).strip = (tightened text).strip := by
  have hedges := closesApart_isLoose.or (closesApart_atEdge WithinTag)
  rw [tightened, tightened, strip_respace_closing, respace_closing_closing hedges seesFirm_isLoose]
  refine respace_congr (fun gap _ => ?_) text
  have hclosed : (isLoose gap || gap.atEdge || isLoose gap) = (isLoose gap || gap.atEdge) := by
    rw [Bool.or_right_comm, Bool.or_self]
  rw [closing, closing, hclosed]

end Minifier.Vue
