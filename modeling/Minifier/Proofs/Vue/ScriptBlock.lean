import Minifier.Proofs.Vue.StyleBlocks

/-!
# The script block of a minified component

The script pass writes the minified body of the first script block back between its tags. The style
pass then reads the whole component, the script block included, and the blanks at the ends go. When
no style block reaches across a border of the script block and the styles in front of it bring no
opening script tag about, the first script block of the result has the minified body exactly when
the style pass keeps that body and no closing script tag has come about in it
(`scriptBody?_minify_iff`). Each condition can fail (`script_block_is_not_isolated`).
-/

set_option autoImplicit false

namespace Minifier.Vue

/-- The body of the first complete script block. -/
def scriptBody? (text : Text) : Option Text :=
  (firstScript? text).map fun block => block.2.1

/-- The parts that the script pass writes: the minified body between its tags. -/
def scriptParts (before body after : Text) : List Text :=
  [before, scriptOpen, JavaScript.minify body, scriptClose, after]

/-- No style block of a text that consists of the given parts reaches across a border of two of
them. -/
def StylesApart (parts : List Text) : Prop :=
  ∀ border ∈ bordersFrom 0 parts, ∀ span ∈ styleSpansFrom 0 parts.flatten, ¬ Crosses span border

instance (parts : List Text) : Decidable (StylesApart parts) :=
  inferInstanceAs (Decidable (∀ border ∈ _, ∀ span ∈ _, ¬ Crosses span border))

theorem startsOnce_scriptOpen : StartsOnce scriptOpen :=
  ⟨.char '<', Text.ofString "script>", rfl, by decide⟩

theorem startsOnce_scriptClose : StartsOnce scriptClose :=
  ⟨.char '<', Text.ofString "/script>", rfl, by decide⟩

/-- Behind a text without an opening tag, the first opening tag starts the block. -/
theorem scriptBody?_append {before : Text} (h : ¬ scriptOpen <:+: before) (inside : Text) :
    scriptBody? (before ++ (scriptOpen ++ inside)) =
      (splitAt? scriptClose inside).map Prod.fst := by
  have hopen := (splitAt?_eq_some_iff startsOnce_scriptOpen).2
    ⟨Eq.refl (before ++ (scriptOpen ++ inside)), h⟩
  rw [scriptBody?, firstScript?]
  simp only [hopen]
  cases splitAt? scriptClose inside with
  | none => rfl
  | some found => rfl

theorem minifyScript_of_some {text before body after : Text}
    (h : firstScript? text = some (before, body, after)) :
    minifyScript text = (scriptParts before body after).flatten := by
  rw [minifyScript]
  simp only [h, scriptParts, List.flatten_cons, List.flatten_nil, List.append_nil,
    List.append_assoc]

/-- Stripping a component keeps its script block. -/
theorem exists_strip_script (before inside after : Text) :
    ∃ before' after', before' <:+ before ∧
      (before ++ (scriptOpen ++ (inside ++ (scriptClose ++ after)))).strip =
        before' ++ (scriptOpen ++ (inside ++ (scriptClose ++ after'))) := by
  have hopen : scriptOpen = .char '<' :: Text.ofString "script>" := rfl
  have hclose : scriptClose = Text.ofString "</script" ++ [.char '>'] := rfl
  obtain ⟨before', after', hbefore, hstrip⟩ :=
    Text.exists_strip_between (a := .char '<') (b := .char '>') (by decide) (by decide) before
      (Text.ofString "script>" ++ (inside ++ Text.ofString "</script")) after
  refine ⟨before', after', hbefore, ?_⟩
  simpa only [hopen, hclose, List.append_assoc, List.cons_append, List.nil_append] using hstrip

/-- The script block that the style pass leaves and stripping keeps. -/
theorem exists_minify_eq {text before body after : Text}
    (h : firstScript? (tighten text) = some (before, body, after))
    (hapart : StylesApart (scriptParts before body after)) :
    ∃ before' after', before' <:+ minifyStyles before ∧
      minify text = before' ++ (scriptOpen ++
        (minifyStyles (JavaScript.minify body) ++ (scriptClose ++ after'))) := by
  have hopen : minifyStyles scriptOpen = scriptOpen := minifyStyles_of_none (by decide)
  have hclose : minifyStyles scriptClose = scriptClose := minifyStyles_of_none (by decide)
  have hstyles : minifyStyles (scriptParts before body after).flatten =
      minifyStyles before ++ (scriptOpen ++ (minifyStyles (JavaScript.minify body) ++
        (scriptClose ++ minifyStyles after))) := by
    rw [minifyStyles_flatten hapart, scriptParts]
    simp only [List.map_cons, List.map_nil, List.flatten_cons, List.flatten_nil, List.append_nil,
      hopen, hclose]
  rw [minify, minifyScript_of_some h, hstyles]
  exact exists_strip_script _ _ _

/-- A text that has not grown is found before a closing tag iff it is the text that stands there,
and has no closing tag in it. -/
theorem splitAt?_scriptClose_iff {found inside after : Text} (h : inside.length ≤ found.length) :
    (splitAt? scriptClose (inside ++ (scriptClose ++ after))).map Prod.fst = some found ↔
      inside = found ∧ ¬ scriptClose <:+: found := by
  constructor
  · intro hfound
    obtain ⟨before, rest, hsplit, hrest⟩ := exists_splitAt?_of_occurrence inside scriptClose after
    rw [hsplit, Option.map_some, Option.some.injEq] at hfound
    obtain rfl : before = found := hfound
    -- what is found ends no later than the text that stands there, and that is no longer
    obtain ⟨hwhole, hnone⟩ := (splitAt?_eq_some_iff startsOnce_scriptClose).1 hsplit
    have hlength := congrArg List.length hwhole
    have hle := hrest.length_le
    simp only [List.length_append] at hlength
    exact ⟨(List.append_inj hwhole (by omega)).1, hnone⟩
  · rintro ⟨rfl, hnone⟩
    rw [(splitAt?_eq_some_iff startsOnce_scriptClose).2 ⟨rfl, hnone⟩]
    rfl

/-- The first script block of a minified component has the minified body iff the style pass keeps
this body and it has no closing script tag, if the styles around the block stay apart from it and
those before it bring no opening script tag about. -/
theorem scriptBody?_minify_iff {text before body after : Text}
    (h : firstScript? (tighten text) = some (before, body, after))
    (hapart : StylesApart (scriptParts before body after))
    (hbefore : ¬ scriptOpen <:+: minifyStyles before) :
    scriptBody? (minify text) = some (JavaScript.minify body) ↔
      minifyStyles (JavaScript.minify body) = JavaScript.minify body ∧
        ¬ scriptClose <:+: JavaScript.minify body := by
  obtain ⟨before', after', hsuffix, hminify⟩ := exists_minify_eq h hapart
  have hfirst : ¬ scriptOpen <:+: before' := fun hopen => hbefore (hopen.trans hsuffix.isInfix)
  rw [hminify, scriptBody?_append hfirst]
  exact splitAt?_scriptClose_iff (length_minifyStyles_le _)

/-- A component whose script block stays on its own. -/
theorem script_block_is_isolated :
    firstScript? (tighten (.ofString "<p>a</p> <script>x = 1;</script> <style lang>b</style>")) =
        some (.ofString "<p>a</p>", .ofString "x = 1;", .ofString "<style lang>b</style>") ∧
      StylesApart (scriptParts (.ofString "<p>a</p>") (.ofString "x = 1;")
        (.ofString "<style lang>b</style>")) ∧
      ¬ scriptOpen <:+: minifyStyles (.ofString "<p>a</p>") ∧
      scriptBody? (minify (.ofString "<p>a</p> <script>x = 1;</script> <style lang>b</style>")) =
        some (JavaScript.minify (.ofString "x = 1;")) := by
  have hscript :
      firstScript? (tighten (.ofString "<p>a</p> <script>x = 1;</script> <style lang>b</style>")) =
        some (.ofString "<p>a</p>", .ofString "x = 1;", .ofString "<style lang>b</style>") := by
    decide +kernel
  have hapart : StylesApart (scriptParts (.ofString "<p>a</p>") (.ofString "x = 1;")
      (.ofString "<style lang>b</style>")) := by
    decide +kernel
  have hbefore : ¬ scriptOpen <:+: minifyStyles (.ofString "<p>a</p>") := by
    decide +kernel
  have hbody : minifyStyles (JavaScript.minify (.ofString "x = 1;")) =
        JavaScript.minify (.ofString "x = 1;") ∧
      ¬ scriptClose <:+: JavaScript.minify (.ofString "x = 1;") := by
    decide +kernel
  exact ⟨hscript, hapart, hbefore, (scriptBody?_minify_iff hscript hapart hbefore).2 hbody⟩

/-- A component whose first script block, with the given body, does not become the minified one. -/
def LosesScript (text body : Text) : Prop :=
  scriptBody? (tighten text) = some body ∧ scriptBody? (minify text) ≠ some (JavaScript.minify body)

instance (text body : Text) : Decidable (LosesScript text body) :=
  inferInstanceAs (Decidable (_ ∧ _))

/-- The style pass rewrites a style block in a script and one around a script, a closing script tag
comes about where the gap in it goes, and an opening one where a comment in it goes. -/
theorem script_block_is_not_isolated :
    LosesScript (.ofString "<script>x = \"<style>a\x7bb:c;\x7d</style>\"</script>")
        (.ofString "x = \"<style>a\x7bb:c;\x7d</style>\"") ∧
      LosesScript (.ofString "<style><script>\x7bx = 1;\x7d</script></style>")
        (.ofString "\x7bx = 1;\x7d") ∧
      LosesScript (.ofString "<script>a < /script>b</script>") (.ofString "a < /script>b") ∧
      LosesScript (.ofString "<style><scr/**/ipt></style><script>x = 1</script>")
        (.ofString "x = 1") := by
  decide +kernel

end Minifier.Vue
