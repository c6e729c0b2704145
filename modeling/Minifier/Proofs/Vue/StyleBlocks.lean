import Minifier.Language.Vue
import Minifier.Proofs.Css.FixedPoint
import Minifier.Proofs.Text.Occurrence

/-!
# Style blocks

A style block starts at the first opening tag, takes the attributes of the tag up to the first `>`,
and ends with the first closing tag behind it (`firstStyle?_eq_some_iff`). `styleSpansFrom` lists
where the blocks that the style pass finds start and end. The pass works on the parts of a text as
it works on the whole, as long as no block reaches across a border of two parts
(`minifyStyles_append`, `minifyStyles_flatten`), and it makes no text longer
(`length_minifyStyles_le`).
-/

set_option autoImplicit false

namespace Minifier.Vue

/-! ## The first block -/

/-- A style block as it is written: a tag with attributes, the body, and the closing tag. -/
def styleBlock (attributes body : Text) : Text :=
  styleName ++ (attributes ++ ([.char '>'] ++ (body ++ styleClose)))

theorem startsOnce_styleName : StartsOnce styleName :=
  ⟨.char '<', Text.ofString "style", rfl, by decide⟩

theorem startsOnce_styleClose : StartsOnce styleClose :=
  ⟨.char '<', Text.ofString "/style>", rfl, by decide⟩

theorem startsOnce_tagEnd : StartsOnce [Glyph.char '>'] :=
  ⟨.char '>', [], rfl, List.not_mem_nil⟩

/-- A style block is found where the first opening tag is; its tag ends with the first `>`, and
its body with the first closing tag. -/
theorem firstStyle?_eq_some_iff {text before body after : Text} :
    firstStyle? text = some (before, body, after) ↔
      ∃ attributes, text = before ++ (styleBlock attributes body ++ after) ∧
        ¬ styleName <:+: before ∧ ¬ [Glyph.char '>'] <:+: attributes ∧
          ¬ styleClose <:+: body := by
  constructor
  · intro h
    rw [firstStyle?] at h
    split at h
    · exact absurd h (by simp)
    · -- each of the three cuts is made at the first place that it can be made at
      next front tag hname =>
      split at h
      · exact absurd h (by simp)
      · next attributes inside htag =>
        split at h
        · exact absurd h (by simp)
        · next content rest hclose =>
          simp only [Option.some.injEq, Prod.mk.injEq] at h
          obtain ⟨rfl, rfl, rfl⟩ := h
          obtain ⟨rfl, hfront⟩ := (splitAt?_eq_some_iff startsOnce_styleName).1 hname
          obtain ⟨rfl, hattributes⟩ := (splitAt?_eq_some_iff startsOnce_tagEnd).1 htag
          obtain ⟨rfl, hcontent⟩ := (splitAt?_eq_some_iff startsOnce_styleClose).1 hclose
          exact ⟨attributes, by simp only [styleBlock, List.append_assoc], hfront, hattributes,
            hcontent⟩
  · rintro ⟨attributes, rfl, hfront, hattributes, hcontent⟩
    have hname : splitAt? styleName (before ++ (styleBlock attributes body ++ after)) =
        some (before, attributes ++ ([.char '>'] ++ (body ++ (styleClose ++ after)))) :=
      (splitAt?_eq_some_iff startsOnce_styleName).2
        ⟨by simp only [styleBlock, List.append_assoc], hfront⟩
    have htag := (splitAt?_eq_some_iff startsOnce_tagEnd).2
      ⟨Eq.refl (attributes ++ ([.char '>'] ++ (body ++ (styleClose ++ after)))), hattributes⟩
    have hclose := (splitAt?_eq_some_iff startsOnce_styleClose).2
      ⟨Eq.refl (body ++ (styleClose ++ after)), hcontent⟩
    rw [firstStyle?, hname]
    simp only [htag, hclose]

/-- Where a style block is written, one is found. -/
theorem firstStyle?_ne_none (front attributes body back : Text) :
    firstStyle? (front ++ (styleBlock attributes body ++ back)) ≠ none := by
  intro hnone
  -- each search finds this occurrence or an earlier one, which leaves more behind it
  obtain ⟨before, tag, hname, htag⟩ := exists_splitAt?_of_occurrence front styleName
    (attributes ++ ([.char '>'] ++ (body ++ (styleClose ++ back))))
  obtain ⟨more, rfl⟩ := htag
  obtain ⟨attributes', inside, hend, hinside⟩ := exists_splitAt?_of_occurrence
    (more ++ attributes) [.char '>'] (body ++ (styleClose ++ back))
  obtain ⟨more', rfl⟩ := hinside
  obtain ⟨body', after, hclose, -⟩ :=
    exists_splitAt?_of_occurrence (more' ++ body) styleClose back
  rw [List.append_assoc] at hend hclose
  simp only [styleBlock, List.append_assoc] at hnone
  rw [firstStyle?, hname] at hnone
  simp only [hend, hclose] at hnone
  exact absurd hnone (by simp)

/-- No style block comes to light in a part of a text without one. -/
theorem firstStyle?_eq_none_of_append {text text' : Text} (h : firstStyle? (text ++ text') = none) :
    firstStyle? text = none ∧ firstStyle? text' = none := by
  constructor
  · rw [Option.eq_none_iff_forall_ne_some]
    rintro ⟨before, body, after⟩ hsome
    obtain ⟨attributes, rfl, -⟩ := firstStyle?_eq_some_iff.1 hsome
    refine firstStyle?_ne_none before attributes body (after ++ text') ?_
    rw [← h]
    simp only [List.append_assoc]
  · rw [Option.eq_none_iff_forall_ne_some]
    rintro ⟨before, body, after⟩ hsome
    obtain ⟨attributes, rfl, -⟩ := firstStyle?_eq_some_iff.1 hsome
    refine firstStyle?_ne_none (text ++ before) attributes body after ?_
    rw [← h]
    simp only [List.append_assoc]

/-! ## The pass over all blocks -/

theorem minifyStyles_of_none {text : Text} (h : firstStyle? text = none) :
    minifyStyles text = text := by
  rw [minifyStyles]
  split
  · rfl
  · next hsome => exact absurd (h.symm.trans hsome) (by simp)

theorem minifyStyles_of_some {text before body after : Text}
    (h : firstStyle? text = some (before, body, after)) :
    minifyStyles text =
      before ++ styleOpen ++ Css.minify body ++ styleClose ++ minifyStyles after := by
  rw [minifyStyles]
  split
  · next hnone => exact absurd (h.symm.trans hnone) (by simp)
  · next before' body' after' hsome =>
    rw [h] at hsome
    simp only [Option.some.injEq, Prod.mk.injEq] at hsome
    obtain ⟨rfl, rfl, rfl⟩ := hsome
    rfl

/-- Where the style blocks that the pass finds start and end, in a text that itself starts at
`place`. -/
def styleSpansFrom (place : Nat) (text : Text) : List (Nat × Nat) :=
  match _ : firstStyle? text with
  | none => []
  | some (before, _, after) =>
    let stop := place + (text.length - after.length)
    (place + before.length, stop) :: styleSpansFrom stop after
termination_by text.length
decreasing_by exact firstStyle?_length ‹_›

theorem styleSpansFrom_of_none {text : Text} (h : firstStyle? text = none) (place : Nat) :
    styleSpansFrom place text = [] := by
  rw [styleSpansFrom]
  split
  · rfl
  · next hsome => exact absurd (h.symm.trans hsome) (by simp)

theorem styleSpansFrom_of_some {text before body after : Text}
    (h : firstStyle? text = some (before, body, after)) (place : Nat) :
    styleSpansFrom place text =
      (place + before.length, place + (text.length - after.length)) ::
        styleSpansFrom (place + (text.length - after.length)) after := by
  rw [styleSpansFrom]
  split
  · next hnone => exact absurd (h.symm.trans hnone) (by simp)
  · next before' body' after' hsome =>
    rw [h] at hsome
    simp only [Option.some.injEq, Prod.mk.injEq] at hsome
    obtain ⟨rfl, rfl, rfl⟩ := hsome
    rfl

/-- The pass makes no text longer. -/
theorem length_minifyStyles_le (text : Text) : (minifyStyles text).length ≤ text.length := by
  induction hlength : text.length using Nat.strong_induction_on generalizing text with
  | _ length ih =>
    cases hfirst : firstStyle? text with
    | none => rw [minifyStyles_of_none hfirst, hlength]
    | some block =>
      obtain ⟨before, body, after⟩ := block
      have hafter := ih after.length (hlength ▸ firstStyle?_length hfirst) after rfl
      have hbody := Css.length_minify_le body
      have hopen : styleOpen.length = styleName.length + 1 := rfl
      obtain ⟨attributes, rfl, -⟩ := firstStyle?_eq_some_iff.1 hfirst
      rw [minifyStyles_of_some hfirst, ← hlength]
      simp only [styleBlock, List.length_append, List.length_cons, List.length_nil]
      omega

/-! ## Borders -/

/-- Whether a span reaches across a border. -/
def Crosses (span : Nat × Nat) (border : Nat) : Prop :=
  span.1 < border ∧ border < span.2

instance (span : Nat × Nat) (border : Nat) : Decidable (Crosses span border) :=
  inferInstanceAs (Decidable (_ ∧ _))

/-- A first block that starts in the second of two texts is the first one there. -/
theorem firstStyle?_of_append_right {text text' before body after : Text}
    (h : firstStyle? (text ++ text') = some (before, body, after))
    (hlength : text.length ≤ before.length) :
    firstStyle? text = none ∧ ∃ front, before = text ++ front ∧
      firstStyle? text' = some (front, body, after) := by
  obtain ⟨attributes, hshape, hname, htag, hclose⟩ := firstStyle?_eq_some_iff.1 h
  obtain ⟨front, rfl⟩ : text <+: before :=
    List.prefix_of_prefix_length_le (hshape ▸ List.prefix_append text text')
      (List.prefix_append _ _) hlength
  rw [List.append_assoc, List.append_cancel_left_eq] at hshape
  constructor
  · rw [Option.eq_none_iff_forall_ne_some]
    rintro ⟨before', body', after'⟩ hsome
    obtain ⟨attributes', rfl, -⟩ := firstStyle?_eq_some_iff.1 hsome
    refine hname ⟨before', attributes' ++ ([.char '>'] ++ (body' ++ styleClose)) ++ after' ++ front,
      ?_⟩
    simp only [styleBlock, List.append_assoc]
  · refine ⟨front, rfl, firstStyle?_eq_some_iff.2 ⟨attributes, hshape, ?_, htag, hclose⟩⟩
    exact fun hfront => hname (hfront.trans (List.suffix_append text front).isInfix)

/-- A first block that ends in the first of two texts is the first one there. -/
theorem firstStyle?_of_append_left {text text' before body after : Text}
    (h : firstStyle? (text ++ text') = some (before, body, after))
    (hlength : text'.length ≤ after.length) :
    ∃ back, after = back ++ text' ∧ firstStyle? text = some (before, body, back) := by
  obtain ⟨attributes, hshape, hname, htag, hclose⟩ := firstStyle?_eq_some_iff.1 h
  have hend : after <:+ text ++ text' := by
    rw [hshape, ← List.append_assoc]
    exact List.suffix_append _ _
  obtain ⟨back, rfl⟩ : text' <:+ after :=
    List.suffix_of_suffix_length_le (List.suffix_append text text') hend hlength
  rw [← List.append_assoc, ← List.append_assoc, List.append_cancel_right_eq] at hshape
  refine ⟨back, rfl, firstStyle?_eq_some_iff.2 ⟨attributes, ?_, hname, htag, hclose⟩⟩
  rw [hshape, List.append_assoc]

/-- If no style block reaches across the border of two texts, the blocks of both are those of the
one and those of the other, and the style pass works on each text on its own. -/
theorem styles_append {text text' : Text} {place : Nat}
    (h : ∀ span ∈ styleSpansFrom place (text ++ text'), ¬ Crosses span (place + text.length)) :
    styleSpansFrom place (text ++ text') =
        styleSpansFrom place text ++ styleSpansFrom (place + text.length) text' ∧
      minifyStyles (text ++ text') = minifyStyles text ++ minifyStyles text' := by
  induction hlength : text.length using Nat.strong_induction_on generalizing text place with
  | _ length ih =>
    subst hlength
    cases hfirst : firstStyle? (text ++ text') with
    | none =>
      obtain ⟨hnone, hnone'⟩ := firstStyle?_eq_none_of_append hfirst
      rw [minifyStyles_of_none hfirst, minifyStyles_of_none hnone, minifyStyles_of_none hnone',
        styleSpansFrom_of_none hfirst, styleSpansFrom_of_none hnone, styleSpansFrom_of_none hnone']
      exact ⟨rfl, rfl⟩
    | some block =>
      obtain ⟨before, body, after⟩ := block
      rw [styleSpansFrom_of_some hfirst, List.forall_mem_cons, Crosses, not_and_or] at h
      obtain ⟨hborder, hrest⟩ := h
      have hwhole := firstStyle?_length hfirst
      rw [List.length_append] at hborder hrest hwhole
      by_cases hstart : text.length ≤ before.length
      · -- the block is the first one of the second text, and the first text has none
        obtain ⟨hnone, front, rfl, hsome⟩ := firstStyle?_of_append_right hfirst hstart
        rw [minifyStyles_of_some hfirst, minifyStyles_of_none hnone, minifyStyles_of_some hsome,
          styleSpansFrom_of_some hfirst, styleSpansFrom_of_none hnone,
          styleSpansFrom_of_some hsome]
        have hinside := firstStyle?_length hsome
        have hstop : place + ((text ++ text').length - after.length) =
            place + text.length + (text'.length - after.length) := by
          rw [List.length_append]
          omega
        rw [hstop, List.length_append, ← Nat.add_assoc]
        exact ⟨rfl, by simp only [List.append_assoc]⟩
      · -- the block is over before the border, and what follows it has the same border
        have hend : text'.length ≤ after.length := by omega
        obtain ⟨back, rfl, hsome⟩ := firstStyle?_of_append_left hfirst hend
        have hinside := firstStyle?_length hsome
        have hstop : place + ((text ++ text').length - (back ++ text').length) =
            place + (text.length - back.length) := by
          rw [List.length_append, List.length_append]
          omega
        have hborder' :
            place + (text.length - back.length) + back.length = place + text.length := by
          omega
        rw [← List.length_append, hstop, ← hborder'] at hrest
        obtain ⟨hspans, hstyles⟩ := ih back.length hinside hrest rfl
        rw [minifyStyles_of_some hfirst, minifyStyles_of_some hsome, hstyles,
          styleSpansFrom_of_some hfirst, styleSpansFrom_of_some hsome, hstop, hspans, hborder']
        exact ⟨rfl, by simp only [List.append_assoc]⟩

/-- Where the parts of a text end that starts at `place`. -/
def bordersFrom (place : Nat) : List Text → List Nat
  | [] => []
  | part :: parts => (place + part.length) :: bordersFrom (place + part.length) parts

/-- If no style block reaches across a border, the style pass works on each part on its own. -/
theorem minifyStyles_flatten {parts : List Text} {place : Nat}
    (h : ∀ border ∈ bordersFrom place parts, ∀ span ∈ styleSpansFrom place parts.flatten,
      ¬ Crosses span border) :
    minifyStyles parts.flatten = (parts.map minifyStyles).flatten := by
  induction parts generalizing place with
  | nil =>
    have hnone : firstStyle? [] = none := by decide
    rw [List.flatten_nil, minifyStyles_of_none hnone]
    rfl
  | cons part parts ih =>
    rw [bordersFrom, List.forall_mem_cons, List.flatten_cons] at h
    obtain ⟨hspans, hstyles⟩ := styles_append h.1
    have hparts : ∀ border ∈ bordersFrom (place + part.length) parts,
        ∀ span ∈ styleSpansFrom (place + part.length) parts.flatten, ¬ Crosses span border :=
      fun border hborder span hspan =>
        h.2 border hborder span (hspans ▸ List.mem_append_right _ hspan)
    rw [List.flatten_cons, hstyles, ih hparts, List.map_cons, List.flatten_cons]

end Minifier.Vue
