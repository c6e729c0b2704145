import Minifier.Comment
import Minifier.Text.Gap

/-!
# CSS

Style sheets with block comments. Comments go, gaps become one space and vanish next to
punctuation, and a semicolon before a closing brace is left out.
-/

set_option autoImplicit false

namespace Minifier.Css

/-- Whether the first glyph that is no blank is a closing brace. -/
def closesNext (text : Text) : Bool :=
  (text.dropWhile Glyph.isBlank).head? == some (.char '\x7d')

/-- Deletes every semicolon that only blanks separate from a closing brace. -/
def dropLastSemicolons : Text → Text
  | [] => []
  | g :: rest =>
    if g = .char ';' && closesNext rest then dropLastSemicolons rest
    else g :: dropLastSemicolons rest

/-- Minifies a style sheet. -/
def minify (text : Text) : Text :=
  let tight := ((Comment.stripBlocks text).compact (Text.oneOf ":")).compact (Text.oneOf "\x7b")
  (dropLastSemicolons (tight.collapse.compact (Text.oneOf "\x7b\x7d;,"))).strip

end Minifier.Css
