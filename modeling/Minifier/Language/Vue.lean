import Minifier.Language.Css
import Minifier.Language.JavaScript
import Minifier.Text.Search

/-!
# Vue components

Components in one file: a template, a script and styles in one text. The blanks at the edges of a
template and between two tags go; the first script block and every style block are minified by the
rules of their own language. A style block loses the attributes of its opening tag.
-/

set_option autoImplicit false

namespace Minifier.Vue

/-- The tags that delimit a script block and a style block. -/
def scriptOpen : Text := .ofString "<script>"
def scriptClose : Text := .ofString "</script>"
def styleName : Text := .ofString "<style"
def styleOpen : Text := .ofString "<style>"
def styleClose : Text := .ofString "</style>"

/-- Deletes the gaps directly after an opening template tag. -/
def trimTemplateStart (text : Text) : Text :=
  let tag := (Text.ofString "<template>").reverse
  text.respace fun gap => if (dropStart? tag gap.before).isSome then [] else gap.run

/-- Deletes the gaps directly before a closing template tag. -/
def trimTemplateEnd (text : Text) : Text :=
  let tag := Text.ofString "</template>"
  text.respace fun gap => if (dropStart? tag gap.after).isSome then [] else gap.run

/-- Deletes the gaps between the end of a tag and the start of the next one. -/
def joinTags (text : Text) : Text :=
  text.respace fun gap =>
    if gap.before.head? == some (.char '>') && gap.after.head? == some (.char '<') then []
    else gap.run

/-- Deletes the gaps at the edges of templates and between tags. -/
def tighten (text : Text) : Text :=
  joinTags (trimTemplateEnd (trimTemplateStart text))

/-- The text before the first complete script block, its body, and the text after it. -/
def firstScript? (text : Text) : Option (Text × Text × Text) :=
  match splitAt? scriptOpen text with
  | none => none
  | some (before, inside) =>
    match splitAt? scriptClose inside with
    | none => none
    | some (body, after) => some (before, body, after)

/-- Minifies the body of the first script block. -/
def minifyScript (text : Text) : Text :=
  match firstScript? text with
  | none => text
  | some (before, body, after) =>
    before ++ scriptOpen ++ JavaScript.minify body ++ scriptClose ++ after

/-- The text before the first complete style block, its body, and the text after it. -/
def firstStyle? (text : Text) : Option (Text × Text × Text) :=
  match splitAt? styleName text with
  | none => none
  | some (before, tag) =>
    match splitAt? [.char '>'] tag with
    | none => none
    | some (_, inside) =>
      match splitAt? styleClose inside with
      | none => none
      | some (body, after) => some (before, body, after)

/-- What follows a style block is shorter than the whole text. -/
theorem firstStyle?_length {text before body after : Text}
    (h : firstStyle? text = some (before, body, after)) : after.length < text.length := by
  simp only [firstStyle?] at h
  split at h
  · simp at h
  · next first tag outer =>
    split at h
    · simp at h
    · next attributes inside middle =>
      split at h
      · simp at h
      · next content rest inner =>
        simp only [Option.some.injEq, Prod.mk.injEq] at h
        obtain ⟨rfl, rfl, rfl⟩ := h
        have outerLength := splitAt?_length outer
        have middleLength := splitAt?_length middle
        have innerLength := splitAt?_length inner
        simp only [List.length_cons, List.length_nil] at middleLength
        omega

/-- Minifies the body of every style block and drops the attributes of its tag. -/
def minifyStyles (text : Text) : Text :=
  match _ : firstStyle? text with
  | none => text
  | some (before, body, after) =>
    before ++ styleOpen ++ Css.minify body ++ styleClose ++ minifyStyles after
termination_by text.length
decreasing_by exact firstStyle?_length ‹_›

/-- Minifies a component. -/
def minify (text : Text) : Text :=
  (minifyStyles (minifyScript (tighten text))).strip

end Minifier.Vue
