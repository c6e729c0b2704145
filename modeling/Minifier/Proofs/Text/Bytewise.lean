import Mathlib.Data.List.Basic
import Minifier.Text.Utf8

/-!
# Bytes one by one

Writing a text is a map from glyphs to bytes, and reading it back need not give the text: opaque
bytes that have come to stand side by side may form a character. Read one by one
(`Utf8.readBytewise`), the bytes keep what is ASCII in the text and keep the rest apart from it
(`Utf8.readBytewise_encode`).
-/

set_option autoImplicit false

namespace Minifier

namespace Utf8

variable {bytes : Bytes} {text : Text} {g : Glyph} {b : UInt8} {c : Char}

/-! ## Writing -/

@[simp]
theorem encode_nil : encode [] = [] :=
  rfl

theorem encode_cons (g : Glyph) (text : Text) : encode (g :: text) = encodeGlyph g ++ encode text :=
  List.flatMap_cons

theorem encode_append (text text' : Text) : encode (text ++ text') = encode text ++ encode text' :=
  List.flatMap_append

/-- Texts with line feeds between them are written as their bytes with line feeds between them. -/
theorem encode_intersperse (chunks : List Text) :
    encode (chunks.intersperse [.char '\n']).flatten = [10].intercalate (chunks.map encode) := by
  have hfeed : encode [.char '\n'] = [10] := by decide
  induction chunks with
  | nil => rfl
  | cons chunk rest ih =>
    cases rest with
    | nil => simp [List.intercalate]
    | cons next rest =>
      rw [List.intersperse_cons_cons, List.flatten_cons, List.flatten_cons, encode_append,
        encode_append, ih, hfeed, List.map_cons, List.map_cons, List.map_cons,
        List.intercalate_cons_cons, List.append_assoc]

/-! ## ASCII -/

theorem encodeGlyph_of_ascii (h : c.toNat < 128) :
    encodeGlyph (.char c) = [UInt8.ofNat c.toNat] := by
  have hle : c.val.toNat ≤ 127 := Nat.lt_succ_iff.1 h
  rw [encodeGlyph, String.utf8EncodeChar, if_pos hle]
  rfl

/-- A glyph outside ASCII: it is written as bytes that are all outside ASCII. -/
def IsHigh (g : Glyph) : Prop :=
  match g with
  | .char c => 128 ≤ c.toNat
  | .byte b => 128 ≤ b.toNat

theorem encodeGlyph_of_isHigh (h : IsHigh g) :
    encodeGlyph g ≠ [] ∧ ∀ b ∈ encodeGlyph g, 128 ≤ b.toNat := by
  cases g with
  | byte b =>
    refine ⟨by simp [encodeGlyph], fun b' hb => ?_⟩
    obtain rfl := List.mem_singleton.1 hb
    exact h
  | char c =>
    have hlow : ¬ c.val.toNat ≤ 127 := Nat.not_le.2 h
    have hbyte : ∀ n, 128 ≤ n → n < 256 → 128 ≤ (UInt8.ofNat n).toNat := by
      intro n hn hn'
      rw [UInt8.toNat_ofNat']
      omega
    -- every byte of a sequence of two, three or four has its highest bit set
    rw [encodeGlyph, String.utf8EncodeChar, if_neg hlow]
    split
    · refine ⟨by simp, ?_⟩
      simp only [List.forall_mem_cons, List.not_mem_nil, false_imp_iff, implies_true, and_true]
      exact ⟨hbyte _ (by omega) (by omega), hbyte _ (by omega) (by omega)⟩
    · split
      · refine ⟨by simp, ?_⟩
        simp only [List.forall_mem_cons, List.not_mem_nil, false_imp_iff, implies_true, and_true]
        exact ⟨hbyte _ (by omega) (by omega), hbyte _ (by omega) (by omega),
          hbyte _ (by omega) (by omega)⟩
      · refine ⟨by simp, ?_⟩
        simp only [List.forall_mem_cons, List.not_mem_nil, false_imp_iff, implies_true, and_true]
        exact ⟨hbyte _ (by omega) (by omega), hbyte _ (by omega) (by omega),
          hbyte _ (by omega) (by omega), hbyte _ (by omega) (by omega)⟩

/-! ## Reading -/

/-- A byte by itself: a character of ASCII, or opaque. -/
def glyphOfByte (b : UInt8) : Glyph :=
  if b < 0x80 then .char (Char.ofNat b.toNat) else .byte b

/-- Reads bytes one by one. -/
def readBytewise (bytes : Bytes) : Text :=
  bytes.map glyphOfByte

theorem readBytewise_append (bytes bytes' : Bytes) :
    readBytewise (bytes ++ bytes') = readBytewise bytes ++ readBytewise bytes' :=
  List.map_append

theorem glyphOfByte_of_high (h : 128 ≤ b.toNat) : glyphOfByte b = .byte b := by
  rw [glyphOfByte, if_neg]
  rw [UInt8.lt_iff_toNat_lt]
  exact Nat.not_lt.2 h

theorem glyphOfByte_ofNat (h : c.toNat < 128) : glyphOfByte (UInt8.ofNat c.toNat) = .char c := by
  have hnat : (UInt8.ofNat c.toNat).toNat = c.toNat := by
    rw [UInt8.toNat_ofNat']
    omega
  rw [glyphOfByte, if_pos (by rw [UInt8.lt_iff_toNat_lt, hnat]; exact h), hnat, Char.ofNat_toNat]

/-- Nothing is lost when bytes are read one by one. -/
theorem encode_readBytewise (bytes : Bytes) : encode (readBytewise bytes) = bytes := by
  induction bytes with
  | nil => rfl
  | cons b bytes ih =>
    have hbyte : encodeGlyph (glyphOfByte b) = [b] := by
      by_cases hb : b < 0x80
      · have hnat : b.toNat < 128 := UInt8.lt_iff_toNat_lt.1 hb
        have hvalid : ∀ n < 128, (Char.ofNat n).toNat = n := by decide
        rw [glyphOfByte, if_pos hb, encodeGlyph_of_ascii (by rwa [hvalid _ hnat]), hvalid _ hnat,
          UInt8.ofNat_toNat]
      · rw [glyphOfByte, if_neg hb]
        rfl
    rw [readBytewise, List.map_cons, encode_cons, hbyte]
    exact congrArg (b :: ·) ih

/-- What is ASCII in a text is read back, and the rest as glyphs outside ASCII. -/
theorem readBytewise_encodeGlyph_cases (h : ∀ b, g = .byte b → 128 ≤ b.toNat) :
    (∃ c, g = .char c ∧ c.toNat < 128 ∧ readBytewise (encodeGlyph g) = [.char c]) ∨
      IsHigh g ∧ ∃ b rest, readBytewise (encodeGlyph g) = .byte b :: rest := by
  have hhigh : IsHigh g → ∃ b rest, readBytewise (encodeGlyph g) = .byte b :: rest := by
    intro hg
    obtain ⟨hne, hbytes⟩ := encodeGlyph_of_isHigh hg
    obtain ⟨b, rest, hcons⟩ := List.exists_cons_of_ne_nil hne
    rw [hcons] at hbytes ⊢
    exact ⟨b, readBytewise rest, by
      rw [readBytewise, List.map_cons, glyphOfByte_of_high (hbytes b List.mem_cons_self)]
      rfl⟩
  cases g with
  | byte b => exact .inr ⟨h b rfl, hhigh (h b rfl)⟩
  | char c =>
    by_cases hc : c.toNat < 128
    · refine .inl ⟨c, rfl, hc, ?_⟩
      rw [encodeGlyph_of_ascii hc, readBytewise, List.map_singleton, glyphOfByte_ofNat hc]
    · exact .inr ⟨Nat.not_lt.1 hc, hhigh (Nat.not_lt.1 hc)⟩

/-- A byte that no sequence accounts for is outside ASCII. -/
theorem high_of_mem_decode (h : .byte b ∈ decode bytes) : 128 ≤ b.toNat := by
  -- the induction is over what is left to read, with any number of bytes still to be skipped
  have key : ∀ (skip : Nat) (bytes : Bytes), .byte b ∈ decodeAfter skip bytes → 128 ≤ b.toNat := by
    intro skip bytes
    fun_induction decodeAfter skip bytes with
    | case1 => exact fun h => absurd h List.not_mem_nil
    | case2 skip lead rest ih => exact ih
    | case3 lead rest c more hhead ih =>
      intro h
      exact ih (by simpa using h)
    | case4 lead rest reason length hhead ih =>
      intro h
      rcases List.mem_cons.1 h with hb | h
      · cases hb
        refine Nat.not_lt.1 fun hlow => ?_
        rw [head.eq_def, if_pos (UInt8.lt_iff_toNat_lt.2 hlow)] at hhead
        cases hhead
      · exact ih h
  exact key 0 bytes h

end Utf8

end Minifier
