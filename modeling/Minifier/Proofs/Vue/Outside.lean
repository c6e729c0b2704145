import Minifier.Proofs.Vue.ScriptBlock
import Minifier.Proofs.Vue.Tightening

/-!
# A component without styles

Where no opening style tag stands in a tightened component, nor in the minified body of its first
script block, the style pass finds nothing to do: the parts of the component and the tags between
them bring no such tag about (`styleName_infix_scriptParts_iff`). What is left of minification is to
delete the loose gaps, to rewrite the body of the first script block and to strip the ends
(`minify_rewrites_gaps_and_first_script`). Without a script block, all of this is done once and for
all.
-/

set_option autoImplicit false

namespace Minifier.Vue

/-! ## The first script block -/

/-- The parts of a text around and in its first complete script block: no block opens before it, and
its body ends with the first closing tag. -/
structure CutAtScript (text before body after : Text) : Prop where
  whole : text = before ++ (scriptOpen ++ (body ++ (scriptClose ++ after)))
  first : ¬ scriptOpen <:+: before
  short : ¬ scriptClose <:+: body

/-- A complete script block stands somewhere in the text. -/
def HasScript (text : Text) : Prop :=
  ∃ before body after, text = before ++ (scriptOpen ++ (body ++ (scriptClose ++ after)))

theorem firstScript?_eq_some_iff {text before body after : Text} :
    firstScript? text = some (before, body, after) ↔ CutAtScript text before body after := by
  constructor
  · intro h
    rw [firstScript?] at h
    split at h
    · exact absurd h (by simp)
    · next front inside hopen =>
      split at h
      · exact absurd h (by simp)
      · next content rest hclose =>
        simp only [Option.some.injEq, Prod.mk.injEq] at h
        obtain ⟨rfl, rfl, rfl⟩ := h
        obtain ⟨rfl, hfirst⟩ := (splitAt?_eq_some_iff startsOnce_scriptOpen).1 hopen
        obtain ⟨rfl, hshort⟩ := (splitAt?_eq_some_iff startsOnce_scriptClose).1 hclose
        exact ⟨rfl, hfirst, hshort⟩
  · rintro ⟨rfl, hfirst, hshort⟩
    have hopen := (splitAt?_eq_some_iff startsOnce_scriptOpen).2
      ⟨Eq.refl (before ++ (scriptOpen ++ (body ++ (scriptClose ++ after)))), hfirst⟩
    have hclose := (splitAt?_eq_some_iff startsOnce_scriptClose).2
      ⟨Eq.refl (body ++ (scriptClose ++ after)), hshort⟩
    rw [firstScript?, hopen]
    simp only [hclose]

/-- A first block is found iff there is a block. -/
theorem firstScript?_eq_none_iff (text : Text) : firstScript? text = none ↔ ¬ HasScript text := by
  constructor
  · rintro hnone ⟨front, body, back, rfl⟩
    -- each search finds this occurrence or an earlier one, which leaves more behind it
    obtain ⟨before, inside, hopen, more, rfl⟩ :=
      exists_splitAt?_of_occurrence front scriptOpen (body ++ (scriptClose ++ back))
    obtain ⟨body', after, hclose, -⟩ :=
      exists_splitAt?_of_occurrence (more ++ body) scriptClose back
    rw [List.append_assoc] at hclose
    rw [firstScript?, hopen] at hnone
    simp only [hclose] at hnone
    exact absurd hnone (by simp)
  · intro hnone
    rw [Option.eq_none_iff_forall_ne_some]
    rintro ⟨before, body, after⟩ hsome
    exact hnone ⟨before, body, after, (firstScript?_eq_some_iff.1 hsome).whole⟩

/-! ## No styles -/

/-- A tag that opens no style block has no part in one that does. -/
theorem styleName_infix_tag_iff {name : Text} (hname : ¬ styleName <:+: .char '<' :: name)
    (before after : Text) :
    styleName <:+: before ++ (.char '<' :: (name ++ [.char '>']) ++ after) ↔
      styleName <:+: before ∨ styleName <:+: after := by
  have hstart : Glyph.char '<' ∉ Text.ofString "style" := by decide
  have hend : Glyph.char '>' ∉ styleName := by decide
  -- an occurrence starts with `<` and goes over no `>`: it is before the tag, in it or behind it
  have htag : styleName <:+: Glyph.char '<' :: (name ++ [.char '>']) ++ after ↔
      styleName <:+: after := by
    rw [List.cons_append, List.append_assoc, List.singleton_append, ← List.cons_append,
      infix_append_cons_iff_of_not_mem hend, or_iff_right hname]
  rw [← htag]
  exact infix_append_iff_of_startsOnce hstart before (name ++ [.char '>'] ++ after)

/-- An opening style tag in what the script pass writes is one in the text around the block or in
the minified body. -/
theorem styleName_infix_scriptParts_iff (before body after : Text) :
    styleName <:+: before ++ (scriptOpen ++ (body ++ (scriptClose ++ after))) ↔
      styleName <:+: before ∨ styleName <:+: body ∨ styleName <:+: after := by
  have hopen : scriptOpen = .char '<' :: (Text.ofString "script" ++ [.char '>']) := rfl
  have hclose : scriptClose = .char '<' :: (Text.ofString "/script" ++ [.char '>']) := rfl
  rw [hopen, hclose, styleName_infix_tag_iff (by decide), styleName_infix_tag_iff (by decide)]

theorem minifyStyles_of_no_opening {text : Text} (h : ¬ styleName <:+: text) :
    minifyStyles text = text := by
  apply minifyStyles_of_none
  rw [firstStyle?, splitAt?_eq_none_iff.2 h]

/-! ## What minification does -/

/-- Without script blocks and styles, loose gaps and the gaps at the ends are all that goes. -/
theorem minify_of_not_hasScript {text : Text} (hstyle : ¬ styleName <:+: tightened text)
    (hscript : ¬ HasScript (tightened text)) : minify text = (tightened text).strip := by
  have hnone := (firstScript?_eq_none_iff (tightened text)).2 hscript
  have hkept : minifyScript (tightened text) = tightened text := by
    rw [minifyScript]
    simp only [hnone]
  rw [minify, tighten_eq_tightened, hkept, minifyStyles_of_no_opening hstyle]

/-- Without styles, the body of the first script block is minified in its place. -/
theorem minify_of_cutAtScript {text before body after : Text}
    (hstyle : ¬ styleName <:+: tightened text)
    (hcut : CutAtScript (tightened text) before body after)
    (hbody : ¬ styleName <:+: JavaScript.minify body) :
    minify text =
      (before ++ (scriptOpen ++ (JavaScript.minify body ++ (scriptClose ++ after)))).strip := by
  have hscript : minifyScript (tightened text) =
      before ++ (scriptOpen ++ (JavaScript.minify body ++ (scriptClose ++ after))) := by
    rw [minifyScript_of_some (firstScript?_eq_some_iff.2 hcut), scriptParts]
    simp only [List.flatten_cons, List.flatten_nil, List.append_nil]
  -- the parts around the block are those of the tightened text, which has no style
  have hparts : ¬ styleName <:+: before ∧ ¬ styleName <:+: after := by
    rw [hcut.whole, styleName_infix_scriptParts_iff] at hstyle
    exact ⟨fun h => hstyle (Or.inl h), fun h => hstyle (Or.inr (Or.inr h))⟩
  have hnone : ¬ styleName <:+:
      before ++ (scriptOpen ++ (JavaScript.minify body ++ (scriptClose ++ after))) := by
    rw [styleName_infix_scriptParts_iff, not_or, not_or]
    exact ⟨hparts.1, hbody, hparts.2⟩
  rw [minify, tighten_eq_tightened, hscript, minifyStyles_of_no_opening hnone]

theorem not_hasScript_of_no_opening {text : Text} (h : ¬ scriptOpen <:+: text) :
    ¬ HasScript text := by
  rintro ⟨before, body, after, rfl⟩
  exact h ⟨before, body ++ (scriptClose ++ after), by simp⟩

theorem firm_scriptOpen : Text.Firm WithinTag scriptOpen :=
  ⟨by decide, by decide⟩

theorem firm_styleName : Text.Firm WithinTag styleName :=
  ⟨by decide, by decide⟩

/-- Without script blocks and styles, minifying again changes nothing. -/
theorem minify_minify_of_no_opening {text : Text} (hstyle : ¬ styleName <:+: tightened text)
    (hopen : ¬ scriptOpen <:+: text) : minify (minify text) = minify text := by
  have hne : scriptOpen ≠ [] := by decide
  have hne' : styleName ≠ [] := by decide
  -- neither tag comes about in what is left of the text
  have hopen' : ¬ scriptOpen <:+: tightened text := by
    rwa [infix_tightened_iff firm_scriptOpen hne]
  have hminify : minify text = (tightened text).strip :=
    minify_of_not_hasScript hstyle (not_hasScript_of_no_opening hopen')
  -- the first pass has closed every gap that is loose, so the second one has nothing to close
  have hsettled : tightened (minify text) = minify text := by
    rw [hminify, tightened_strip_tightened]
  have hopen'' : ¬ scriptOpen <:+: tightened (minify text) := by
    rwa [hsettled, hminify, infix_strip_tightened_iff firm_scriptOpen hne]
  have hstyle' : ¬ styleName <:+: tightened (minify text) := by
    rwa [hsettled, hminify, infix_strip_tightened_iff firm_styleName hne',
      ← infix_tightened_iff firm_styleName hne']
  rw [minify_of_not_hasScript hstyle' (not_hasScript_of_no_opening hopen''), hsettled, hminify,
    Text.strip_strip]

/-- If neither a tightened component nor the minified body of its first script block has an opening
style tag, minification deletes the loose gaps, minifies that body in its place, and strips the
ends. A component without an opening script tag is minified in one pass. -/
theorem minify_rewrites_gaps_and_first_script {text : Text}
    (hstyle : ¬ styleName <:+: tightened text)
    (hbody : ∀ before body after, CutAtScript (tightened text) before body after →
      ¬ styleName <:+: JavaScript.minify body) :
    (¬ HasScript (tightened text) → minify text = (tightened text).strip) ∧
      (HasScript (tightened text) → ∃ before body after,
        CutAtScript (tightened text) before body after ∧
          minify text =
            (before ++ (scriptOpen ++ (JavaScript.minify body ++ (scriptClose ++ after)))).strip) ∧
      (¬ scriptOpen <:+: text → minify (minify text) = minify text) := by
  refine ⟨minify_of_not_hasScript hstyle, ?_, minify_minify_of_no_opening hstyle⟩
  intro hscript
  have hfound : firstScript? (tightened text) ≠ none := by
    intro hnone
    exact (firstScript?_eq_none_iff (tightened text)).1 hnone hscript
  obtain ⟨⟨before, body, after⟩, hsome⟩ := Option.ne_none_iff_exists'.1 hfound
  have hcut := firstScript?_eq_some_iff.1 hsome
  have hminify := minify_of_cutAtScript hstyle hcut (hbody before body after hcut)
  exact ⟨before, body, after, hcut, hminify⟩

/-- The second of two script blocks stays as it is. -/
theorem second_script_is_kept :
    ¬ styleName <:+: tightened (.ofString "<p>a</p> <script>x = 1</script> <script> y </script>") ∧
      (∀ before body after,
        CutAtScript (tightened (.ofString "<p>a</p> <script>x = 1</script> <script> y </script>"))
          before body after → ¬ styleName <:+: JavaScript.minify body) ∧
      HasScript (tightened (.ofString "<p>a</p> <script>x = 1</script> <script> y </script>")) ∧
      ∃ before body after,
        CutAtScript (tightened (.ofString "<p>a</p> <script>x = 1</script> <script> y </script>"))
          before body after ∧
          minify (.ofString "<p>a</p> <script>x = 1</script> <script> y </script>") =
            (before ++
              (scriptOpen ++ (JavaScript.minify body ++ (scriptClose ++ after)))).strip := by
  have hstyle : ¬ styleName <:+:
      tightened (.ofString "<p>a</p> <script>x = 1</script> <script> y </script>") := by
    decide +kernel
  have hfirst : firstScript?
      (tightened (.ofString "<p>a</p> <script>x = 1</script> <script> y </script>")) =
        some (.ofString "<p>a</p>", .ofString "x = 1", .ofString "<script> y </script>") := by
    decide +kernel
  have hbody : ∀ before body after,
      CutAtScript (tightened (.ofString "<p>a</p> <script>x = 1</script> <script> y </script>"))
        before body after → ¬ styleName <:+: JavaScript.minify body := by
    intro before body after hcut
    have hsome := firstScript?_eq_some_iff.2 hcut
    rw [hfirst, Option.some.injEq, Prod.mk.injEq, Prod.mk.injEq] at hsome
    rw [← hsome.2.1]
    decide +kernel
  have hscript : HasScript
      (tightened (.ofString "<p>a</p> <script>x = 1</script> <script> y </script>")) :=
    ⟨_, _, _, (firstScript?_eq_some_iff.1 hfirst).whole⟩
  exact ⟨hstyle, hbody, hscript,
    (minify_rewrites_gaps_and_first_script hstyle hbody).2.1 hscript⟩

/-- A closing script tag that nothing opens is kept like any other tag. -/
example : minify (.ofString "<template> <p> a </p>\n</template> </script>") =
    .ofString "<template><p> a </p></template></script>" := by
  decide +kernel

end Minifier.Vue
