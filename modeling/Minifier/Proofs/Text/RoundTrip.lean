import Minifier.Proofs.Text.Bytewise

/-!
# Reading and writing back

Reading bytes and writing the text gives the bytes again (`Utf8.encode_decode`), whatever the bytes
are. A sequence of bytes stands for a character when it is one of the four forms of `IsSequence`,
which leave out what is overlong, a surrogate or above the last code point; these are exactly the
sequences that characters are written as (`IsSequence.utf8EncodeChar_eq`,
`isSequence_utf8EncodeChar`). A byte becomes opaque where no sequence starts, and there only:
`Utf8.decode_eq_iff` says which of the texts that are written as given bytes is the one that is read
from them.
-/

set_option autoImplicit false

namespace Minifier

namespace Utf8

variable {lead : UInt8} {rest bytes : Bytes} {text : Text} {c : Char} {more code : Nat}

/-! ## Sequences -/

theorem isContinuation_iff {b : UInt8} :
    isContinuation b = true ↔ 0x80 ≤ b.toNat ∧ b.toNat ≤ 0xBF := by
  simp only [isContinuation, Bool.and_eq_true, decide_eq_true_eq, UInt8.le_iff_toNat_le]
  exact Iff.rfl

theorem allowsSecond_iff {b : UInt8} :
    allowsSecond lead b = true ↔ isContinuation b = true ∧
      (lead.toNat = 0xE0 → 0xA0 ≤ b.toNat) ∧ (lead.toNat = 0xED → b.toNat < 0xA0) ∧
        (lead.toNat = 0xF0 → 0x90 ≤ b.toNat) ∧ (lead.toNat = 0xF4 → b.toNat < 0x90) := by
  simp only [allowsSecond, Bool.and_eq_true, Bool.not_eq_true', Bool.and_eq_false_iff,
    beq_eq_false_iff_ne, decide_eq_false_iff_not, ne_eq, ← UInt8.toNat_inj,
    UInt8.lt_iff_toNat_lt, UInt8.le_iff_toNat_le, UInt8.reduceToNat, and_assoc, imp_iff_not_or,
    Nat.not_lt, Nat.not_le]

/-- The sequences of bytes that stand for a code point. -/
inductive IsSequence : Bytes → Nat → Prop
  | one {a : UInt8} : a.toNat < 0x80 → IsSequence [a] a.toNat
  | two {a b : UInt8} : 0xC2 ≤ a.toNat → a.toNat < 0xE0 → isContinuation b = true →
      IsSequence [a, b] ((a.toNat - 0xC0) * 64 + payload b)
  | three {a b c : UInt8} : 0xE0 ≤ a.toNat → a.toNat < 0xF0 → allowsSecond a b = true →
      isContinuation c = true →
      IsSequence [a, b, c] (((a.toNat - 0xE0) * 64 + payload b) * 64 + payload c)
  | four {a b c d : UInt8} : 0xF0 ≤ a.toNat → a.toNat < 0xF5 → allowsSecond a b = true →
      isContinuation c = true → isContinuation d = true →
      IsSequence [a, b, c, d]
        ((((a.toNat - 0xF0) * 64 + payload b) * 64 + payload c) * 64 + payload d)

theorem ite_char_eq_char_iff {p : Prop} [Decidable p] {d : Char} {n length : Nat}
    {reason : Reason} :
    (if p then Head.char d n else .fault reason length) = .char c more ↔
      p ∧ c = d ∧ n = more := by
  by_cases hp : p
  · rw [if_pos hp, Head.char.injEq, eq_comm (a := d)]
    exact (and_iff_right hp).symm
  · rw [if_neg hp]
    exact iff_of_false nofun fun h => hp h.1

theorem ite_fault_eq_char_iff {p : Prop} [Decidable p] {found : Head} {length : Nat}
    {reason : Reason} :
    (if p then .fault reason length else found) = .char c more ↔ ¬ p ∧ found = .char c more := by
  by_cases hp : p
  · rw [if_pos hp]
    exact iff_of_false nofun fun h => h.1 hp
  · rw [if_neg hp]
    exact (and_iff_right hp).symm

/-- Where a character is read, one of the sequences stands. -/
theorem exists_isSequence_of_head (h : head lead rest = .char c more) :
    ∃ tail after code, rest = tail ++ after ∧ tail.length = more ∧
      IsSequence (lead :: tail) code ∧ c = Char.ofNat code := by
  -- the first byte says how many follow it, and each of these is asked in turn
  rw [head.eq_def] at h
  simp only [UInt8.lt_iff_toNat_lt, UInt8.reduceToNat] at h
  by_cases hone : lead.toNat < 0x80
  · rw [if_pos hone] at h
    cases h
    exact ⟨[], rest, _, rfl, rfl, .one hone, rfl⟩
  rw [if_neg hone, ite_fault_eq_char_iff] at h
  obtain ⟨hlow, h⟩ := h
  by_cases htwo : lead.toNat < 0xE0
  · rw [if_pos htwo] at h
    cases rest with
    | nil => cases h
    | cons b rest =>
      obtain ⟨hb, hc, hmore⟩ := ite_char_eq_char_iff.1 h
      exact ⟨[b], rest, _, rfl, hmore, .two (Nat.not_lt.1 hlow) htwo hb, hc⟩
  rw [if_neg htwo] at h
  by_cases hthree : lead.toNat < 0xF0
  · rw [if_pos hthree] at h
    cases rest with
    | nil => cases h
    | cons b rest =>
      obtain ⟨hb, h⟩ := ite_fault_eq_char_iff.1 h
      rw [Bool.not_eq_true', Bool.not_eq_false] at hb
      cases rest with
      | nil => cases h
      | cons d rest =>
        obtain ⟨hd, hc, hmore⟩ := ite_char_eq_char_iff.1 h
        exact ⟨[b, d], rest, _, rfl, hmore, .three (Nat.not_lt.1 htwo) hthree hb hd, hc⟩
  rw [if_neg hthree] at h
  by_cases hfour : lead.toNat < 0xF5
  · rw [if_pos hfour] at h
    cases rest with
    | nil => cases h
    | cons b rest =>
      obtain ⟨hb, h⟩ := ite_fault_eq_char_iff.1 h
      rw [Bool.not_eq_true', Bool.not_eq_false] at hb
      cases rest with
      | nil => cases h
      | cons d rest =>
        obtain ⟨hd, h⟩ := ite_fault_eq_char_iff.1 h
        rw [Bool.not_eq_true', Bool.not_eq_false] at hd
        cases rest with
        | nil => cases h
        | cons e rest =>
          obtain ⟨he, hc, hmore⟩ := ite_char_eq_char_iff.1 h
          exact ⟨[b, d, e], rest, _, rfl, hmore,
            .four (Nat.not_lt.1 hthree) hfour hb hd he, hc⟩
  · rw [if_neg hfour] at h
    cases h

/-- Where one of the sequences stands, its character is read. -/
theorem IsSequence.head_eq {tail : Bytes} (h : IsSequence (lead :: tail) code) (after : Bytes) :
    head lead (tail ++ after) = .char (Char.ofNat code) tail.length := by
  have hpass : ∀ {b : Bool}, b = true → ¬ (!b) = true := by simp
  rw [head.eq_def]
  simp only [UInt8.lt_iff_toNat_lt, UInt8.reduceToNat]
  cases h with
  | one ha => exact if_pos ha
  | two ha ha' hb =>
    rw [if_neg (by omega), if_neg (by omega), if_pos ha']
    exact if_pos hb
  | three ha ha' hb hd =>
    rw [if_neg (by omega), if_neg (by omega), if_neg (by omega), if_pos ha']
    exact (if_neg (hpass hb)).trans (if_pos hd)
  | four ha ha' hb hd he =>
    rw [if_neg (by omega), if_neg (by omega), if_neg (by omega), if_neg (by omega), if_pos ha']
    exact (if_neg (hpass hb)).trans ((if_neg (hpass hd)).trans (if_pos he))

/-! ## Characters as sequences -/

/-- A sequence stands for the code point of a character. -/
theorem IsSequence.isValidChar (h : IsSequence bytes code) : code.isValidChar := by
  cases h with
  | one ha =>
    unfold Nat.isValidChar
    omega
  | two ha ha' hb =>
    have hb := isContinuation_iff.1 hb
    unfold payload Nat.isValidChar
    omega
  | three ha ha' hb hd =>
    have hb' := allowsSecond_iff.1 hb
    have hb := isContinuation_iff.1 hb'.1
    have hd := isContinuation_iff.1 hd
    unfold payload Nat.isValidChar
    omega
  | four ha ha' hb hd he =>
    have hb' := allowsSecond_iff.1 hb
    have hb := isContinuation_iff.1 hb'.1
    have hd := isContinuation_iff.1 hd
    have he := isContinuation_iff.1 he
    unfold payload Nat.isValidChar
    omega

theorem ofNat_eq_of_eq_toNat {a : UInt8} {n : Nat} (h : n = a.toNat) : UInt8.ofNat n = a := by
  rw [h, UInt8.ofNat_toNat]

theorem toNat_ofNat_of_lt {n : Nat} (h : n < 256) : (UInt8.ofNat n).toNat = n := by
  rw [UInt8.toNat_ofNat']
  exact Nat.mod_eq_of_lt h

/-- A character is written as the sequence that stands for it. -/
theorem IsSequence.utf8EncodeChar_eq (h : IsSequence bytes code) (hcode : c.val.toNat = code) :
    String.utf8EncodeChar c = bytes := by
  rw [String.utf8EncodeChar, hcode]
  cases h with
  | one ha =>
    rw [if_pos (by omega), UInt8.ofNat_toNat]
  | two ha ha' hb =>
    have hb := isContinuation_iff.1 hb
    unfold payload
    rw [if_neg (by omega), if_pos (by omega), List.cons.injEq, List.cons.injEq]
    refine ⟨ofNat_eq_of_eq_toNat ?_, ofNat_eq_of_eq_toNat ?_, rfl⟩
    · omega
    · omega
  | three ha ha' hb hd =>
    have hb' := allowsSecond_iff.1 hb
    have hb := isContinuation_iff.1 hb'.1
    have hd := isContinuation_iff.1 hd
    unfold payload
    rw [if_neg (by omega), if_neg (by omega), if_pos (by omega)]
    simp only [List.cons.injEq, and_true]
    refine ⟨ofNat_eq_of_eq_toNat ?_, ofNat_eq_of_eq_toNat ?_, ofNat_eq_of_eq_toNat ?_⟩
    · omega
    · omega
    · omega
  | four ha ha' hb hd he =>
    have hb' := allowsSecond_iff.1 hb
    have hb := isContinuation_iff.1 hb'.1
    have hd := isContinuation_iff.1 hd
    have he := isContinuation_iff.1 he
    unfold payload
    rw [if_neg (by omega), if_neg (by omega), if_neg (by omega)]
    simp only [List.cons.injEq, and_true]
    refine ⟨ofNat_eq_of_eq_toNat ?_, ofNat_eq_of_eq_toNat ?_, ofNat_eq_of_eq_toNat ?_,
      ofNat_eq_of_eq_toNat ?_⟩
    · omega
    · omega
    · omega
    · omega

theorem toNat_ofNat_continuation (n : Nat) : (UInt8.ofNat (n % 64 + 128)).toNat = n % 64 + 128 :=
  toNat_ofNat_of_lt (by omega)

theorem isContinuation_ofNat (n : Nat) : isContinuation (UInt8.ofNat (n % 64 + 128)) = true := by
  rw [isContinuation_iff, toNat_ofNat_continuation]
  omega

theorem IsSequence.of_eq {code' : Nat} (h : IsSequence bytes code) (hcode : code = code') :
    IsSequence bytes code' :=
  hcode ▸ h

/-- Every character is written as a sequence that stands for it. -/
theorem isSequence_utf8EncodeChar (c : Char) :
    IsSequence (String.utf8EncodeChar c) c.val.toNat := by
  have hvalid : c.val.toNat.isValidChar := c.valid
  unfold Nat.isValidChar at hvalid
  rw [String.utf8EncodeChar]
  generalize c.val.toNat = v at hvalid ⊢
  have hlast := toNat_ofNat_continuation v
  have hmiddle := toNat_ofNat_continuation (v / 64)
  -- the bounds of each length are those that its bytes have to keep
  split_ifs with hone htwo hthree
  · have hlead := toNat_ofNat_of_lt (n := v) (by omega)
    exact (IsSequence.one (by omega)).of_eq hlead
  · have hlead := toNat_ofNat_of_lt (n := v / 64 % 32 + 192) (by omega)
    refine (IsSequence.two ?_ ?_ (isContinuation_ofNat _)).of_eq ?_
    · omega
    · omega
    · unfold payload
      omega
  · have hlead := toNat_ofNat_of_lt (n := v / 4096 % 16 + 224) (by omega)
    refine (IsSequence.three ?_ ?_ (allowsSecond_iff.2 ⟨isContinuation_ofNat _, ?_⟩)
      (isContinuation_ofNat _)).of_eq ?_
    · omega
    · omega
    · omega
    · unfold payload
      omega
  · have hlead := toNat_ofNat_of_lt (n := v / 262144 % 8 + 240) (by omega)
    have hsecond := toNat_ofNat_continuation (v / 4096)
    refine (IsSequence.four ?_ ?_ (allowsSecond_iff.2 ⟨isContinuation_ofNat _, ?_⟩)
      (isContinuation_ofNat _) (isContinuation_ofNat _)).of_eq ?_
    · omega
    · omega
    · omega
    · unfold payload
      omega

/-- A character is read where it is written, and it takes the bytes that it is written as. -/
theorem head_eq_char_iff :
    head lead rest = .char c more ↔ ∃ tail after, rest = tail ++ after ∧ tail.length = more ∧
      String.utf8EncodeChar c = lead :: tail := by
  constructor
  · intro h
    obtain ⟨tail, after, code, rfl, rfl, hseq, rfl⟩ := exists_isSequence_of_head h
    refine ⟨tail, after, rfl, rfl, hseq.utf8EncodeChar_eq ?_⟩
    rw [Char.ofNat, dif_pos hseq.isValidChar]
    rfl
  · rintro ⟨tail, after, rfl, rfl, hwritten⟩
    have hseq := isSequence_utf8EncodeChar c
    rw [hwritten] at hseq
    exact (hseq.head_eq after).trans (congrArg (Head.char · _) (Char.ofNat_toNat c))

/-! ## Reading and writing back -/

theorem encode_decodeAfter (skip : Nat) (bytes : Bytes) :
    encode (decodeAfter skip bytes) = bytes.drop skip := by
  fun_induction decodeAfter skip bytes with
  | case1 => simp
  | case2 skip lead rest ih => exact ih
  | case3 lead rest c more hhead ih =>
    obtain ⟨tail, after, rfl, rfl, hwritten⟩ := head_eq_char_iff.1 hhead
    rw [List.drop_left] at ih
    rw [encode_cons, ih, encodeGlyph, hwritten]
    rfl
  | case4 lead rest reason length hhead ih =>
    rw [encode_cons, ih]
    rfl

/-- Nothing is lost when bytes are read and written back. -/
theorem encode_decode (bytes : Bytes) : encode (decode bytes) = bytes :=
  encode_decodeAfter 0 bytes

/-- No character is written with the bytes that an opaque byte and what follows it are written
as. -/
def IsSettled (text : Text) : Prop :=
  ∀ before b after, text = before ++ .byte b :: after →
    ∀ c : Char, ¬ String.utf8EncodeChar c <+: b :: encode after

theorem isSettled_cons {g : Glyph} :
    IsSettled (g :: text) ↔
      (∀ b, g = .byte b → ∀ c : Char, ¬ String.utf8EncodeChar c <+: b :: encode text) ∧
        IsSettled text := by
  constructor
  · intro h
    refine ⟨fun b hb => h [] b text (congrArg (· :: text) hb), ?_⟩
    intro before b after htext
    exact h (g :: before) b after (congrArg (g :: ·) htext)
  · rintro ⟨hfirst, hrest⟩ before b after htext
    cases before with
    | nil =>
      obtain ⟨rfl, rfl⟩ := List.cons.inj htext
      exact hfirst b rfl
    | cons g' before => exact hrest before b after (List.cons.inj htext).2

/-- A fault is found exactly where no character is written. -/
theorem exists_head_eq_fault_iff :
    (∃ reason length, head lead rest = .fault reason length) ↔
      ∀ c : Char, ¬ String.utf8EncodeChar c <+: lead :: rest := by
  constructor
  · rintro ⟨reason, length, hhead⟩ c ⟨after, hafter⟩
    obtain ⟨first, tail, hwritten⟩ :=
      List.exists_cons_of_ne_nil (String.utf8EncodeChar_ne_nil (c := c))
    rw [hwritten, List.cons_append] at hafter
    obtain ⟨rfl, rfl⟩ := List.cons.inj hafter
    have hchar := head_eq_char_iff.2 ⟨tail, after, rfl, rfl, hwritten⟩
    rw [hhead] at hchar
    cases hchar
  · intro h
    cases hhead : head lead rest with
    | char c more =>
      obtain ⟨tail, after, rfl, -, hwritten⟩ := head_eq_char_iff.1 hhead
      exact absurd ⟨after, by rw [hwritten]; rfl⟩ (h c)
    | fault reason length => exact ⟨reason, length, rfl⟩

theorem isSettled_decodeAfter (skip : Nat) (bytes : Bytes) :
    IsSettled (decodeAfter skip bytes) := by
  fun_induction decodeAfter skip bytes with
  | case1 => exact fun before b after h => absurd h (by simp)
  | case2 skip lead rest ih => exact ih
  | case3 lead rest c more hhead ih =>
    refine isSettled_cons.2 ⟨?_, ih⟩
    rintro b ⟨⟩
  | case4 lead rest reason length hhead ih =>
    refine isSettled_cons.2 ⟨?_, ih⟩
    rintro b hb
    cases hb
    rw [encode_decodeAfter]
    exact exists_head_eq_fault_iff.1 ⟨_, _, hhead⟩

theorem decodeAfter_append (tail bytes : Bytes) :
    decodeAfter tail.length (tail ++ bytes) = decodeAfter 0 bytes := by
  induction tail with
  | nil => rfl
  | cons b tail ih => exact ih

theorem decode_encode_of_isSettled (h : IsSettled text) : decode (encode text) = text := by
  induction text with
  | nil => rfl
  | cons g rest ih =>
    obtain ⟨hfirst, hrest⟩ := isSettled_cons.1 h
    cases g with
    | char c =>
      obtain ⟨lead, tail, hwritten⟩ :=
        List.exists_cons_of_ne_nil (String.utf8EncodeChar_ne_nil (c := c))
      have hhead := head_eq_char_iff.2 ⟨tail, encode rest, rfl, rfl, hwritten⟩
      rw [encode_cons, encodeGlyph, hwritten, List.cons_append, decode, decodeAfter, hhead]
      exact congrArg (Glyph.char c :: ·) ((decodeAfter_append tail _).trans (ih hrest))
    | byte b =>
      obtain ⟨reason, length, hhead⟩ := exists_head_eq_fault_iff.2 (hfirst b rfl)
      rw [encode_cons, encodeGlyph, List.singleton_append, decode, decodeAfter, hhead]
      exact congrArg (Glyph.byte b :: ·) (ih hrest)

/-- Of the texts that are written as given bytes, the one that is read from them has a byte opaque
only where no character is written. -/
theorem decode_eq_iff : decode bytes = text ↔ encode text = bytes ∧ IsSettled text := by
  constructor
  · rintro rfl
    exact ⟨encode_decode bytes, isSettled_decodeAfter 0 bytes⟩
  · rintro ⟨rfl, h⟩
    exact decode_encode_of_isSettled h

/-- An encoded surrogate and an overlong slash are opaque byte by byte. -/
example : decode [0xED, 0xA0, 0x80, 0xC0, 0xAF, 0x41] =
    [.byte 0xED, .byte 0xA0, .byte 0x80, .byte 0xC0, .byte 0xAF, .char 'A'] := by
  decide

end Utf8

end Minifier
