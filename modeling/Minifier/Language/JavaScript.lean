import Minifier.Comment
import Minifier.Text.Gap
import Minifier.Text.Word

/-!
# JavaScript

Scripts with slash and block comments. Comments go; a gap that holds a line break vanishes, so
statements that rely on the end of a line run together; other gaps become one space, and vanish
next to an operator. A keyword keeps one space before an opening parenthesis.
-/

set_option autoImplicit false

namespace Minifier.JavaScript

/-- The operators and the punctuation that need no blanks around them. -/
def operators : String :=
  "=+-*/%&|^!<>\x7b\x7d()[];:,."

/-- The words that keep a space before an opening parenthesis. -/
def keywords : List Text :=
  ["if", "else", "for", "while", "switch", "catch", "function"].map Text.ofString

/-- Deletes the gaps that hold a line feed, and those at the ends of the text. -/
def joinLines (text : Text) : Text :=
  text.respace fun gap =>
    if gap.atEdge || gap.run.contains (.char '\n') then [] else gap.run

/-- Writes a space between a keyword and an opening parenthesis; `word` is the run of word
characters that ends here, nearest first. -/
def spaceKeywordsFrom : Text → Text → Text
  | _, [] => []
  | word, g :: rest =>
    if g = .char '(' && keywords.contains word.reverse then
      .char ' ' :: g :: spaceKeywordsFrom [] rest
    else g :: spaceKeywordsFrom (if g.isWord then g :: word else []) rest

/-- Writes a space before every opening parenthesis that directly follows a keyword. -/
def spaceKeywords (text : Text) : Text :=
  spaceKeywordsFrom [] text

/-- Minifies a script. -/
def minify (text : Text) : Text :=
  let joined := (joinLines (Comment.stripSlashComments text)).squeeze
  (spaceKeywords (joined.compact (Text.oneOf operators))).strip

end Minifier.JavaScript
