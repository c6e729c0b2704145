import Minifier.Text.Glyph

/-!
# Blanks

The whitespace of Unicode, with the four separator controls `U+001C` to `U+001F`; an opaque byte is
no blank. Main definitions: `isBlankCode`, `Glyph.isBlank`, `Chars.trim`.
-/

set_option autoImplicit false

namespace Minifier

/-- Whether a code point is whitespace. -/
def isBlankCode (code : Nat) : Bool :=
  if code < 128 then (9 ≤ code && code ≤ 13) || (28 ≤ code && code ≤ 32)
  else
    code == 0x85 || code == 0xA0 || code == 0x1680 || (0x2000 ≤ code && code ≤ 0x200A) ||
      code == 0x2028 || code == 0x2029 || code == 0x202F || code == 0x205F || code == 0x3000

/-- Whether a glyph is whitespace. -/
def Glyph.isBlank : Glyph → Bool
  | .char c => isBlankCode c.toNat
  | .byte _ => false

namespace Chars

/-- Deletes the blanks at both ends of a list of characters. -/
def trim (chars : List Char) : List Char :=
  let blank (c : Char) : Bool := isBlankCode c.toNat
  ((chars.dropWhile blank).reverse.dropWhile blank).reverse

end Chars

end Minifier
