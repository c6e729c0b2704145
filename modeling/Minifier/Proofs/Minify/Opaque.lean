import Minifier.Minify
import Minifier.Proofs.Comment.Cut
import Minifier.Proofs.Css.Semicolons
import Minifier.Proofs.JavaScript.Keywords
import Minifier.Proofs.Text.Disguise
import Minifier.Proofs.Text.RoundTrip
import Minifier.Proofs.Vue.StyleBlocks
import Minifier.Proofs.Vue.Tightening

/-!
# Opaque bytes in minified texts

Minification does not look at opaque bytes. Each of its steps gives the same of a text in disguise
as of the text itself, in disguise (`minify_map`): comments are cut off at the same places
(`Comment.Cut.map`), gaps are filled with the same blanks, and the blocks of a component are found
at the same places. An opaque byte is neutral, so a text whose opaque bytes are replaced by other
neutral glyphs is a disguise of it. With what is known of reading and writing this says that no byte
gets lost on the way into a transformation, and that none is mistaken for something else there
(`reading_loses_no_byte`).
-/

set_option autoImplicit false

namespace Minifier

variable {f : Glyph → Glyph}

/-! ## Comments -/

namespace Comment

variable {opens : Bool → Text → Bool} {fresh : Bool} {text : Text} {codes : List Text}

/-- A disguised text is cut at the same places, if line comments open at the same places. -/
theorem Cut.map (hf : Disguise f)
    (hopens : ∀ fresh text, opens fresh (text.map f) = opens fresh text)
    (h : Cut opens fresh text codes) : Cut opens fresh (text.map f) (codes.map (List.map f)) := by
  have hmarker : Pins f (Text.ofString "/*") := hf.pins (by decide)
  have hend : Pins f (Text.ofString "*/") := hf.pins (by decide)
  have hslash : f (.char '/') = .char '/' := hf.char_eq (by decide)
  have hstar : f (.char '*') = .char '*' := hf.char_eq (by decide)
  -- every kind of piece stays one of its kind, since what ends it is kept by the disguise
  induction h with
  | nil => exact Cut.nil
  | @copy fresh g rest code codes hcode hblock _ ih =>
    have hline : decide (f g = .char '\n') = decide (g = .char '\n') :=
      decide_eq_decide.2 (hf.eq_char_iff g '\n' (by decide))
    refine Cut.copy ?_ ?_ ?_
    · exact (hopens fresh (g :: rest)).trans hcode
    · rwa [← List.map_cons, hmarker.prefix_map_iff]
    · rwa [hline]
  | @line fresh body rest codes hcode hbody hrest _ ih =>
    rw [List.map_append]
    refine Cut.line ?_ ?_ ?_ ih
    · rwa [← List.map_append, hopens]
    · rwa [(hf.pins_char (by decide)).mem_map_iff]
    · intro g hg
      rw [List.head?_map, Option.mem_def, Option.map_eq_some_iff] at hg
      obtain ⟨b, hb, rfl⟩ := hg
      rw [hrest b hb, hf.char_eq (by decide)]
  | @block fresh body rest codes hbody _ ih =>
    rw [List.map_cons, List.map_cons, List.map_append, List.map_cons, List.map_cons, hslash, hstar]
    exact Cut.block (by rwa [hend.infix_map_iff]) ih
  | @openBlock fresh body hbody =>
    rw [List.map_cons, List.map_cons, hslash, hstar]
    exact Cut.openBlock (by rwa [hend.infix_map_iff])

/-- What deletes comments does the same in disguise. -/
theorem map_of_cut (hf : Disguise f) (hlines : OpensLines opens)
    (hopens : ∀ fresh text, opens fresh (text.map f) = opens fresh text) {strip : Text → Text}
    (hstrip : ∀ {text codes}, Cut opens true text codes → strip text = codes.flatten)
    (text : Text) : strip (text.map f) = (strip text).map f := by
  obtain ⟨codes, hcut, -⟩ := exists_cut hlines true text
  rw [hstrip hcut, hstrip (hcut.map hf hopens), List.map_flatten]

theorem opensDashLine_map (hf : Disguise f) (text : Text) :
    opensDashLine (text.map f) = opensDashLine text := by
  induction text with
  | nil => rfl
  | cons g rest ih =>
    rw [List.map_cons, opensDashLine_cons, opensDashLine_cons, ih]
    simp only [hf.eq_char_iff g ' ' (by decide), hf.eq_char_iff g '\t' (by decide),
      hf.eq_char_iff g '-' (by decide), (hf.pins_char (c := '-') (by decide)).head?_map_eq_some_iff]

theorem stripSlashComments_map (hf : Disguise f) (text : Text) :
    stripSlashComments (text.map f) = (stripSlashComments text).map f := by
  refine map_of_cut hf opensLines_slash ?_ flatten_of_slashCut text
  intro fresh text
  rw [opensSlashAt, opensSlashAt, Bool.eq_iff_iff, List.isPrefixOf_iff_prefix,
    List.isPrefixOf_iff_prefix, (hf.pins (by decide)).prefix_map_iff]

theorem stripDashComments_map (hf : Disguise f) (text : Text) :
    stripDashComments (text.map f) = (stripDashComments text).map f := by
  refine map_of_cut hf opensLines_dash ?_ flatten_of_dashCut text
  intro fresh text
  rw [opensDashAt, opensDashAt, opensDashLine_map hf]

theorem stripBlocks_map (hf : Disguise f) (text : Text) :
    stripBlocks (text.map f) = (stripBlocks text).map f :=
  map_of_cut hf opensLines_nowhere (fun _ _ => rfl) flatten_of_blockCut text

end Comment

/-! ## Languages -/

open Text Comment

theorem Php.minify_map (hf : Disguise f) (text : Text) :
    Php.minify (text.map f) = (Php.minify text).map f := by
  rw [Php.minify, Php.minify, stripSlashComments_map hf, collapse_map hf,
    compact_map hf (by decide), strip_map hf]

theorem Sql.minify_map (hf : Disguise f) (text : Text) :
    Sql.minify (text.map f) = (Sql.minify text).map f := by
  rw [Sql.minify, Sql.minify, stripDashComments_map hf, collapse_map hf]

namespace JavaScript

theorem joinLines_map (hf : Disguise f) (text : Text) :
    joinLines (text.map f) = (joinLines text).map f := by
  refine respace_map hf (overlooks_nil.ite (fun gap => ?_) overlooks_run) text
  have hfeed : (gap.run.map f).contains (.char '\n') = gap.run.contains (.char '\n') := by
    rw [Bool.eq_iff_iff, List.contains_iff_mem, List.contains_iff_mem,
      (hf.pins_char (by decide)).mem_map_iff]
  rw [atEdge_map]
  exact congrArg (gap.atEdge || ·) hfeed

theorem contains_keywords_map (hf : Disguise f) (word : Text) :
    keywords.contains (word.map f) = keywords.contains word := by
  have hpins : ∀ keyword ∈ keywords, Pins f keyword := by
    intro keyword hkeyword
    obtain ⟨name, hname, rfl⟩ := List.mem_map.1 hkeyword
    refine hf.pins ?_
    revert hname name
    decide
  rw [Bool.eq_iff_iff, List.contains_iff_mem, List.contains_iff_mem]
  constructor
  · intro hmem
    rwa [(hpins _ hmem).map_eq_iff.1 rfl]
  · intro hmem
    rwa [(hpins word hmem).map_eq]

theorem spaceKeywordsFrom_map (hf : Disguise f) (word text : Text) :
    spaceKeywordsFrom (word.map f) (text.map f) = (spaceKeywordsFrom word text).map f := by
  induction text generalizing word with
  | nil => rfl
  | cons g rest ih =>
    have hspace : keywordSpace (word.map f) (f g) = (keywordSpace word g).map f := by
      have hparen := hf.eq_char_iff g '(' (by decide)
      have hblank : f (.char ' ') = .char ' ' := hf.char_eq (by decide)
      simp only [keywordSpace, hparen, ← List.map_reverse, contains_keywords_map hf]
      split_ifs
      · rw [List.map_singleton, hblank]
      · rfl
    have hword : wordThrough (word.map f) (f g) = (wordThrough word g).map f := by
      rw [wordThrough, wordThrough, hf.isWord]
      split_ifs <;> rfl
    rw [List.map_cons, spaceKeywordsFrom_cons, spaceKeywordsFrom_cons, hspace, hword, ih,
      List.map_append, List.map_cons]

theorem spaceKeywords_map (hf : Disguise f) (text : Text) :
    spaceKeywords (text.map f) = (spaceKeywords text).map f :=
  spaceKeywordsFrom_map hf [] text

theorem minify_map (hf : Disguise f) (text : Text) :
    minify (text.map f) = (minify text).map f := by
  rw [minify, minify, stripSlashComments_map hf, joinLines_map hf, squeeze_map hf,
    compact_map hf (by decide), spaceKeywords_map hf, strip_map hf]

end JavaScript

namespace Css

theorem dropLastSemicolons_map (hf : Disguise f) (text : Text) :
    dropLastSemicolons (text.map f) = (dropLastSemicolons text).map f := by
  induction text with
  | nil => rfl
  | cons g rest ih =>
    have hcloses : closesNext (rest.map f) = closesNext rest := by
      have hdrop : (rest.map f).dropWhile Glyph.isBlank = (rest.dropWhile Glyph.isBlank).map f := by
        rw [List.dropWhile_map]
        simp only [Function.comp_def, hf.isBlank]
      rw [Bool.eq_iff_iff, closesNext, closesNext, beq_iff_eq, beq_iff_eq, hdrop,
        (hf.pins_char (by decide)).head?_map_eq_some_iff]
    simp only [List.map_cons, dropLastSemicolons, hf.eq_char_iff g ';' (by decide), hcloses, ih]
    split_ifs <;> rfl

theorem minify_map (hf : Disguise f) (text : Text) :
    minify (text.map f) = (minify text).map f := by
  rw [minify, minify, stripBlocks_map hf, compact_map hf (by decide), compact_map hf (by decide),
    collapse_map hf, compact_map hf (by decide), dropLastSemicolons_map hf, strip_map hf]

end Css

namespace Vue

theorem respace_closing_map (hf : Disguise f) {closes : Gap → Bool}
    (hcloses : ∀ gap : Gap, closes (gap.map f) = closes gap) (text : Text) :
    respace (closing closes) (text.map f) = (respace (closing closes) text).map f :=
  respace_map hf (overlooks_nil.ite hcloses overlooks_run) text

theorem tighten_map (hf : Disguise f) (text : Text) :
    tighten (text.map f) = (tighten text).map f := by
  have hprefix : ∀ {word text : Text}, Pins f word →
      word.isPrefixOf (text.map f) = word.isPrefixOf text := by
    intro word text hpins
    rw [Bool.eq_iff_iff, List.isPrefixOf_iff_prefix, List.isPrefixOf_iff_prefix,
      hpins.prefix_map_iff]
  have hstart : Pins f (ofString "<template>").reverse :=
    fun g hg => hf.pins (by decide) g (List.mem_reverse.1 hg)
  have hend : Pins f (ofString "</template>") := hf.pins (by decide)
  rw [tighten_eq_tightened, tighten_eq_tightened]
  refine respace_closing_map hf (fun gap => ?_) text
  simp only [isLoose, afterTemplateStart, beforeTemplateEnd, betweenTags, Gap.map,
    List.reverse_singleton, hprefix hstart, hprefix hend,
    hprefix (hf.pins_char (c := '<') (by decide)), hprefix (hf.pins_char (c := '>') (by decide))]

/-- The parts of a text around a block and in it. -/
def mapParts (f : Glyph → Glyph) (parts : Text × Text × Text) : Text × Text × Text :=
  (parts.1.map f, parts.2.1.map f, parts.2.2.map f)

theorem firstScript?_map (hf : Disguise f) (text : Text) :
    firstScript? (text.map f) = (firstScript? text).map (mapParts f) := by
  have hopen : Pins f scriptOpen := hf.pins (by decide)
  have hclose : Pins f scriptClose := hf.pins (by decide)
  rw [firstScript?, firstScript?, splitAt?_map hopen]
  cases splitAt? scriptOpen text with
  | none => rfl
  | some parts =>
    simp only [Option.map_some, splitAt?_map hclose]
    cases splitAt? scriptClose parts.2 <;> rfl

theorem firstStyle?_map (hf : Disguise f) (text : Text) :
    firstStyle? (text.map f) = (firstStyle? text).map (mapParts f) := by
  have hname : Pins f styleName := hf.pins (by decide)
  have hend : Pins f [.char '>'] := hf.pins_char (by decide)
  have hclose : Pins f styleClose := hf.pins (by decide)
  rw [firstStyle?, firstStyle?, splitAt?_map hname]
  cases splitAt? styleName text with
  | none => rfl
  | some parts =>
    simp only [Option.map_some, splitAt?_map hend]
    cases splitAt? [.char '>'] parts.2 with
    | none => rfl
    | some parts =>
      simp only [Option.map_some, splitAt?_map hclose]
      cases splitAt? styleClose parts.2 <;> rfl

theorem minifyScript_map (hf : Disguise f) (text : Text) :
    minifyScript (text.map f) = (minifyScript text).map f := by
  have hopen : scriptOpen.map f = scriptOpen := (hf.pins (by decide)).map_eq
  have hclose : scriptClose.map f = scriptClose := (hf.pins (by decide)).map_eq
  rw [minifyScript, minifyScript, firstScript?_map hf]
  cases firstScript? text with
  | none => rfl
  | some parts =>
    simp only [Option.map_some, mapParts, List.map_append, hopen, hclose,
      JavaScript.minify_map hf]

theorem minifyStyles_map (hf : Disguise f) (text : Text) :
    minifyStyles (text.map f) = (minifyStyles text).map f := by
  have hopen : styleOpen.map f = styleOpen := (hf.pins (by decide)).map_eq
  have hclose : styleClose.map f = styleClose := (hf.pins (by decide)).map_eq
  induction hlength : text.length using Nat.strong_induction_on generalizing text with
  | _ length ih =>
    have hmap := firstStyle?_map hf text
    cases hfirst : firstStyle? text with
    | none =>
      rw [hfirst] at hmap
      rw [minifyStyles_of_none hmap, minifyStyles_of_none hfirst]
    | some parts =>
      obtain ⟨before, body, after⟩ := parts
      rw [hfirst] at hmap
      have hafter := ih after.length (hlength ▸ firstStyle?_length hfirst) after rfl
      rw [minifyStyles_of_some hmap, minifyStyles_of_some hfirst]
      simp only [List.map_append, hopen, hclose, Css.minify_map hf, hafter]

theorem minify_map (hf : Disguise f) (text : Text) :
    minify (text.map f) = (minify text).map f := by
  rw [minify, minify, tighten_map hf, minifyScript_map hf, minifyStyles_map hf, strip_map hf]

end Vue

/-- No rule of any kind of file tells a disguised text from the text itself. -/
theorem minify_map (hf : Disguise f) (kind : Kind) (text : Text) :
    minify kind (text.map f) = (minify kind text).map f := by
  cases kind with
  | php => exact Php.minify_map hf text
  | sql => exact Sql.minify_map hf text
  | javaScript => exact JavaScript.minify_map hf text
  | css => exact Css.minify_map hf text
  | vue => exact Vue.minify_map hf text

/-! ## Opaque bytes -/

/-- A glyph that rules have no use for: neither blank nor a word character, and no character of
ASCII, as all marks and tags are. -/
structure Glyph.IsNeutral (g : Glyph) : Prop where
  isBlank : g.isBlank = false
  isWord : g.isWord = false
  ne_char : ∀ c : Char, c.toNat < 128 → g ≠ .char c

theorem Glyph.isNeutral_byte (b : UInt8) : (Glyph.byte b).IsNeutral :=
  ⟨rfl, rfl, fun _ _ => nofun⟩

/-- A glyph, or what stands for it when it is an opaque byte. -/
def Glyph.inGuise (guise : UInt8 → Glyph) : Glyph → Glyph
  | .char c => .char c
  | .byte b => guise b

theorem disguise_inGuise {guise : UInt8 → Glyph} (h : ∀ b, (guise b).IsNeutral) :
    Disguise (Glyph.inGuise guise) := by
  constructor
  · intro g
    cases g with
    | char c => rfl
    | byte b => exact (h b).isBlank
  · intro g
    cases g with
    | char c => rfl
    | byte b => exact (h b).isWord
  · intro g c hc
    cases g with
    | char d => rfl
    | byte b => exact iff_of_false ((h b).ne_char c hc) nofun

open Utf8

/-- Reading loses no byte: what is read from bytes is written as the same bytes, and it is the only
text written so that has a byte opaque nowhere but where no character is written. Opaque bytes are
outside ASCII, and rules have no use for them: minification does the same with whatever other
neutral glyphs stand for them. -/
theorem reading_loses_no_byte (bytes : Bytes) :
    encode (decode bytes) = bytes ∧
      (∀ text, decode bytes = text ↔ encode text = bytes ∧ IsSettled text) ∧
      (∀ b, .byte b ∈ decode bytes → 128 ≤ b.toNat) ∧
      (∀ b, (Glyph.byte b).IsNeutral) ∧
      ∀ guise : UInt8 → Glyph, (∀ b, (guise b).IsNeutral) → ∀ kind,
        minify kind ((decode bytes).map (Glyph.inGuise guise)) =
          (minify kind (decode bytes)).map (Glyph.inGuise guise) :=
  ⟨encode_decode bytes, fun _ => decode_eq_iff, fun _ => high_of_mem_decode,
    Glyph.isNeutral_byte, fun _ hguise kind => minify_map (disguise_inGuise hguise) kind _⟩

/-- A section sign may stand for the stray byte of a comparison in PHP. -/
theorem section_sign_stands_for_stray_byte :
    (Glyph.char '§').IsNeutral ∧
      minify .php ((decode [0x24, 0x61, 0x20, 0x3C, 0x20, 0xC3, 0x20]).map
          (Glyph.inGuise fun _ => .char '§')) =
        (minify .php (decode [0x24, 0x61, 0x20, 0x3C, 0x20, 0xC3, 0x20])).map
          (Glyph.inGuise fun _ => .char '§') ∧
      minify .php (decode [0x24, 0x61, 0x20, 0x3C, 0x20, 0xC3, 0x20]) =
        [.char '$', .char 'a', .char '<', .byte 0xC3] := by
  have hneutral : (Glyph.char '§').IsNeutral := by
    refine ⟨by decide, by decide +kernel, ?_⟩
    rintro c hc hsame
    cases hsame
    exact absurd hc (by decide)
  exact ⟨hneutral, (reading_loses_no_byte _).2.2.2.2 _ (fun _ => hneutral) .php, by decide⟩

end Minifier
