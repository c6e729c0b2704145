import Minifier.Proofs.Pattern.Scan
import Minifier.Proofs.Php.FixedPoint
import Minifier.Proofs.Text.Bytewise
import Minifier.RuleSet.Laravel

/-!
# The opening tag

The pattern that is deleted from the front of a file takes the opening tag of PHP and the blanks
behind it (`Laravel.deleteFirst_eq_dropOpening`). Minified PHP has no blank but the space
(`isTidy_minify`), so the tag can be deleted from the bytes as well as from the text
(`encode_dropOpening`).
-/

set_option autoImplicit false

namespace Minifier

/-- The opening tag. -/
def openingTag : Text :=
  Text.ofString "<?php"

/-- A text without the opening tag and the blanks behind it, if it starts with the tag. -/
def dropOpening (text : Text) : Text :=
  if openingTag.isPrefixOf text then (text.drop openingTag.length).dropWhile Glyph.isBlank
  else text

/-! ## The pattern -/

namespace Pattern

/-- A node that can only start with the text is not found further on. -/
theorem findFrom?_eq_none {body : Node} {mustMove : Bool} {before passed rest : Text}
    {index left : Nat} (hbefore : before ≠ []) :
    Node.findFrom? (.seq (.place .textStart) body) mustMove before passed index left rest =
      none := by
  have hmatch : ∀ {mustMove : Bool} {s : Cursor}, s.before ≠ [] →
      Node.matchAt? (.seq (.place .textStart) body) mustMove s = none := by
    intro mustMove s hs
    have hplace : s.isAt .textStart = false := by
      rw [Cursor.isAt]
      simpa using hs
    show (Node.place .textStart).run _ s = none
    rw [Node.run_place, hplace]
    rfl
  induction rest generalizing mustMove before passed index left with
  | nil =>
    rw [Node.findFrom?, hmatch hbefore]
    rfl
  | cons g rest ih =>
    rw [Node.findFrom?, hmatch hbefore]
    exact ih (List.cons_ne_nil _ _)

/-- The node of the opening tag: at the start of the text, with the blanks behind it. -/
def opening : Node :=
  .seq (.place .textStart)
    (.spelled "<?php".toList (.several .blanks 0 none .greedy))

/-- At the start of a text the node takes the tag and the blanks behind it. -/
theorem matchAt?_opening (text : Text) :
    (openingTag.isPrefixOf text = true → ∃ e, opening.matchAt? false (.start text) = some e ∧
        e.rest = (text.drop openingTag.length).dropWhile Glyph.isBlank) ∧
      (openingTag.isPrefixOf text = false → opening.matchAt? false (.start text) = none) := by
  have hrun : opening.matchAt? false (.start text) = if openingTag.isPrefixOf text then
      (Node.several .blanks 0 none .greedy).run some ((Cursor.start text).behind openingTag)
        else none := by
    have hstart : opening.matchAt? false (.start text) =
        (Node.spelled "<?php".toList (.several .blanks 0 none .greedy)).run some (.start text) := by
      simp only [opening, Node.matchAt?, Bool.false_and, Bool.false_eq_true, if_false]
      rfl
    rw [hstart, run_spelled]
    rfl
  refine ⟨fun hopens => ?_, fun hopens => by rw [hrun, hopens]; rfl⟩
  -- the repetition is greedy and nothing follows it, so its longest advance is the match
  have hleft : ((Cursor.start text).behind openingTag).rest.length ≤
      ((Cursor.start text).behind openingTag).left :=
    Cursor.rest_behind_le (Nat.le_refl text.length) openingTag
  rw [hrun, if_pos hopens]
  refine ⟨_, run_greedy_of_eq_some hleft rfl, ?_⟩
  rw [GlyphClass.firstOf_blanks]
  exact Cursor.rest_behind_takeWhile Glyph.isBlank _

theorem deleteFirst_opening (text : Text) : opening.deleteFirst text = dropOpening text := by
  obtain ⟨hfound, hmissing⟩ := matchAt?_opening text
  rw [dropOpening, Node.deleteFirst, Node.find?]
  cases hopens : openingTag.isPrefixOf text with
  | true =>
    obtain ⟨e, he, hrest⟩ := hfound hopens
    -- the tag stands at the start of the text or nowhere, so the search ends at once
    have hfind : opening.findFrom? false [] [] 0 text.length text = some ⟨[], e.index = 0, e⟩ := by
      cases text with
      | nil => cases hopens
      | cons g rest =>
        have he : opening.matchAt? false ⟨[], 0, g :: rest, (g :: rest).length, []⟩ = some e := he
        rw [Node.findFrom?, he]
    rw [hfind]
    exact hrest
  | false =>
    have hfind : opening.findFrom? false [] [] 0 text.length text = none := by
      cases text with
      | nil =>
        rw [Node.findFrom?]
        show (opening.matchAt? false (.start [])).map _ = none
        rw [hmissing hopens]
        rfl
      | cons g rest =>
        have hnone : opening.matchAt? false ⟨[], 0, g :: rest, (g :: rest).length, []⟩ = none :=
          hmissing hopens
        rw [Node.findFrom?, hnone]
        exact findFrom?_eq_none (List.cons_ne_nil _ _)
    rw [hfind]
    rfl

end Pattern

/-! ## Tidy texts -/

/-- A glyph is tidy when it is no blank but the space, and no byte of ASCII stands opaque. -/
def Glyph.IsTidy (g : Glyph) : Prop :=
  (g.isBlank = true → g = .char ' ') ∧ ∀ b, g = .byte b → 128 ≤ b.toNat

/-- Minified PHP has no blank but the space. -/
theorem Php.isTidy_minify {bytes : Bytes} {g : Glyph} (h : g ∈ Php.minify (Utf8.decode bytes)) :
    g.IsTidy := by
  rw [Php.minify_eq_respace] at h
  rcases Text.mem_respaceFrom h with ⟨gap, hgap⟩ | ⟨hmem, hblank⟩
  · rw [Text.spaceUnless] at hgap
    split at hgap
    · cases hgap
    · obtain rfl := List.mem_singleton.1 hgap
      exact ⟨fun _ => rfl, by simp⟩
  · refine ⟨fun h => ?_, ?_⟩
    · rw [hblank] at h
      cases h
    · rintro b rfl
      exact Utf8.high_of_mem_decode ((Comment.stripSlashFrom_sublist _ _).subset hmem)

/-! ## The tag among the bytes -/

variable {text : Text} {g : Glyph}

/-- A text starts with characters of ASCII exactly when its bytes do. -/
theorem isPrefixOf_readBytewise {tag : List Char} (htag : ∀ c ∈ tag, c.toNat < 128)
    (htidy : ∀ g ∈ text, g.IsTidy) :
    (tag.map Glyph.char).isPrefixOf (Utf8.readBytewise (Utf8.encode text)) =
      (tag.map Glyph.char).isPrefixOf text := by
  induction tag generalizing text with
  | nil => simp
  | cons c tag ih =>
    rw [List.forall_mem_cons] at htag
    cases text with
    | nil => rfl
    | cons g rest =>
      rw [List.forall_mem_cons] at htidy
      rw [Utf8.encode_cons, Utf8.readBytewise_append, List.map_cons]
      rcases Utf8.readBytewise_encodeGlyph_cases htidy.1.2 with
        ⟨d, rfl, hd, hread⟩ | ⟨hhigh, b, bytes, hread⟩
      · rw [hread, List.singleton_append, List.isPrefixOf_cons_cons, List.isPrefixOf_cons_cons,
          ih htag.2 htidy.2]
      · have hne : (Glyph.char c == g) = false := by
          rw [beq_eq_false_iff_ne]
          rintro rfl
          exact Nat.not_lt.2 hhigh htag.1
        rw [hread, List.cons_append, List.isPrefixOf_cons_cons, List.isPrefixOf_cons_cons, hne]
        rfl

/-- The bytes of characters of ASCII are as many as the characters. -/
theorem drop_readBytewise {tag : List Char} (htag : ∀ c ∈ tag, c.toNat < 128) (rest : Text) :
    (Utf8.readBytewise (Utf8.encode (tag.map Glyph.char ++ rest))).drop tag.length =
      Utf8.readBytewise (Utf8.encode rest) := by
  induction tag with
  | nil => rfl
  | cons c tag ih =>
    rw [List.forall_mem_cons] at htag
    rw [List.map_cons, List.cons_append, Utf8.encode_cons, Utf8.encodeGlyph_of_ascii htag.1,
      Utf8.readBytewise_append, List.length_cons]
    exact ih htag.2

/-- Blanks at the front of a tidy text are spaces, and they can be dropped from its bytes. -/
theorem encode_dropWhile_readBytewise (htidy : ∀ g ∈ text, g.IsTidy) :
    Utf8.encode ((Utf8.readBytewise (Utf8.encode text)).dropWhile Glyph.isBlank) =
      Utf8.encode (text.dropWhile Glyph.isBlank) := by
  induction text with
  | nil => rfl
  | cons g rest ih =>
    rw [List.forall_mem_cons] at htidy
    by_cases hblank : g.isBlank = true
    · obtain rfl := htidy.1.1 hblank
      have hspace : Utf8.readBytewise (Utf8.encodeGlyph (.char ' ')) = [.char ' '] := by decide
      rw [Utf8.encode_cons, Utf8.readBytewise_append, hspace, List.singleton_append,
        List.dropWhile_cons_of_pos hblank, List.dropWhile_cons_of_pos hblank, ih htidy.2]
    · -- whether the glyph is ASCII or not, no blank comes first among its bytes
      have hkept : (Utf8.readBytewise (Utf8.encode (g :: rest))).dropWhile Glyph.isBlank =
          Utf8.readBytewise (Utf8.encode (g :: rest)) := by
        rw [Utf8.encode_cons, Utf8.readBytewise_append]
        rcases Utf8.readBytewise_encodeGlyph_cases htidy.1.2 with
          ⟨d, rfl, hd, hread⟩ | ⟨hhigh, b, bytes, hread⟩
        · rw [hread, List.singleton_append, List.dropWhile_cons_of_neg hblank]
        · rw [hread, List.cons_append, List.dropWhile_cons_of_neg (by simp [Glyph.isBlank])]
      rw [hkept, Utf8.encode_readBytewise, List.dropWhile_cons_of_neg hblank]

/-- The opening tag of a tidy text can be dropped from its bytes. -/
theorem encode_dropOpening (htidy : ∀ g ∈ text, g.IsTidy) :
    Utf8.encode (dropOpening (Utf8.readBytewise (Utf8.encode text))) =
      Utf8.encode (dropOpening text) := by
  have htag : ∀ c ∈ "<?php".toList, c.toNat < 128 := by simp
  rw [dropOpening, dropOpening]
  have hopens : openingTag.isPrefixOf (Utf8.readBytewise (Utf8.encode text)) =
      openingTag.isPrefixOf text := isPrefixOf_readBytewise htag htidy
  rw [hopens]
  split
  · next hstarts =>
    obtain ⟨rest, rfl⟩ := List.isPrefixOf_iff_prefix.1 hstarts
    have hdrop : (Utf8.readBytewise (Utf8.encode (openingTag ++ rest))).drop openingTag.length =
        Utf8.readBytewise (Utf8.encode rest) := drop_readBytewise htag rest
    rw [hdrop, List.drop_left, encode_dropWhile_readBytewise fun g hg =>
      htidy g (List.mem_append_right _ hg)]
  · rw [Utf8.encode_readBytewise]

theorem Laravel.stripPrefix_eq :
    Laravel.rules.stripPrefix = some ⟨Laravel.stripPrefix, Pattern.opening⟩ := by
  decide +kernel

/-- What the rules delete from the front of a file is the opening tag with the blanks behind it. -/
theorem Laravel.deleteFirst_eq_dropOpening {pattern : Pattern}
    (h : Laravel.rules.stripPrefix = some pattern) (text : Text) :
    pattern.deleteFirst text = dropOpening text := by
  cases h.symm.trans Laravel.stripPrefix_eq
  exact Pattern.deleteFirst_opening text

end Minifier
