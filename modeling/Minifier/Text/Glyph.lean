/-!
# Glyphs and texts

A text is a list of glyphs. A glyph is a character, or a byte that belongs to no UTF-8 sequence:
such a byte is kept as one opaque unit, so that a text read from any file can be written back
unchanged. `Glyph.code` numbers the glyphs by code point; an opaque byte takes the low surrogate
`0xDC00 + byte`, which no character has.
-/

set_option autoImplicit false

namespace Minifier

/-- One unit of a text: a character, or a byte that no UTF-8 sequence accounts for. -/
inductive Glyph where
  | char (c : Char)
  | byte (b : UInt8)
  deriving DecidableEq, Repr, Inhabited

/-- A text, as the list of its glyphs. -/
abbrev Text := List Glyph

instance : Coe Char Glyph := ⟨.char⟩

/-- The code point of a glyph; an opaque byte has that of a low surrogate. -/
def Glyph.code : Glyph → Nat
  | .char c => c.toNat
  | .byte b => 0xDC00 + b.toNat

/-- The number of bytes that a glyph takes in a file. -/
def Glyph.byteSize : Glyph → Nat
  | .char c => c.utf8Size
  | .byte _ => 1

namespace Text

/-- The text of a string of characters. -/
def ofString (s : String) : Text :=
  s.toList.map .char

/-- The characters of a text, with every opaque byte left out. -/
def chars (text : Text) : List Char :=
  text.filterMap fun
    | .char c => some c
    | .byte _ => none

/-- Whether a text has no opaque byte. -/
def isClean (text : Text) : Bool :=
  text.all fun
    | .char _ => true
    | .byte _ => false

/-- A text without opaque bytes, as a string. -/
def toString? (text : Text) : Option String :=
  if isClean text then some (String.ofList (chars text)) else none

/-- The number of bytes that a text takes in a file. -/
def byteSize (text : Text) : Nat :=
  text.foldr (fun g size => g.byteSize + size) 0

end Text

end Minifier
