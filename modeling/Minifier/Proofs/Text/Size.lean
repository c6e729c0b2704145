import Minifier.Proofs.Text.RoundTrip

/-!
# Sizes of texts

The size of a text is the number of bytes that it is written as (`Utf8.length_encode`), so a text
that was read from a file has the size of that file (`Utf8.byteSize_decode`).
-/

set_option autoImplicit false

namespace Minifier

namespace Glyph

theorem one_le_byteSize (g : Glyph) : 1 ≤ g.byteSize := by
  cases g with
  | char c => exact Char.utf8Size_pos c
  | byte b => exact Nat.le_refl 1

end Glyph

namespace Text

variable {text part : Text}

@[simp]
theorem byteSize_nil : byteSize [] = 0 := rfl

@[simp]
theorem byteSize_cons (g : Glyph) (text : Text) :
    byteSize (g :: text) = g.byteSize + byteSize text := rfl

@[simp]
theorem byteSize_append (text more : Text) :
    byteSize (text ++ more) = byteSize text + byteSize more := by
  induction text with
  | nil => simp
  | cons g text ih => rw [List.cons_append, byteSize_cons, byteSize_cons, ih, Nat.add_assoc]

/-- Leaving out glyphs does not make a text larger. -/
theorem byteSize_le_of_sublist (h : part.Sublist text) : byteSize part ≤ byteSize text := by
  induction h with
  | slnil => exact Nat.le_refl 0
  | cons g _ ih => exact Nat.le_trans ih (Nat.le_add_left ..)
  | cons_cons g _ ih => exact Nat.add_le_add_left ih g.byteSize

end Text

namespace Utf8

/-- A text takes as many bytes in a file as its size says. -/
theorem length_encode (text : Text) : (encode text).length = text.byteSize := by
  induction text with
  | nil => rfl
  | cons g text ih =>
    have hglyph : (encodeGlyph g).length = g.byteSize := by
      cases g with
      | char c => exact String.length_utf8EncodeChar c
      | byte b => rfl
    rw [encode, List.flatMap_cons, List.length_append, hglyph, Text.byteSize_cons, ← ih, encode]

/-- What was read has the size of the file that it was read from. -/
theorem byteSize_decode (bytes : Bytes) : (decode bytes).byteSize = bytes.length := by
  rw [← length_encode, encode_decode]

end Utf8

end Minifier
