import Minifier.Text.Digit
import Minifier.Text.Glyph
import Minifier.Text.Letter

/-!
# Word characters

A word is a run of letters, numerals and underscores. An opaque byte is no word character. Main
definition: `Glyph.isWord`.
-/

set_option autoImplicit false

namespace Minifier

/-- Whether a code point is a letter, a numeral or the underscore. -/
def isWordCode (code : Nat) : Bool :=
  code == 95 || isLetterCode code || isDecimalCode code || isNumeralCode code

/-- Whether a glyph is a word character. -/
def Glyph.isWord : Glyph → Bool
  | .char c => isWordCode c.toNat
  | .byte _ => false

end Minifier
