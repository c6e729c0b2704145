import Mathlib.Data.List.Infix
import Minifier.Proofs.Comment.Cut
import Minifier.Proofs.JavaScript.FixedPoint
import Minifier.Proofs.Text.Layout

/-!
# What minified JavaScript consists of

Seven passes make a minified script, and what they leave can be said in two steps. The ink of the
code between the comments is written in a row, with one space between two neighbours that are no
operators, where blanks but no line feed stood between them. Then a space is written before every
opening parenthesis that stands directly behind a keyword (`minify_lays_out_joined_lines`).

The reader that writes these spaces knows the word that ends at its place, and no more of the text
before it (`spaceKeywordsFrom_eq_flatMap`); that is enough, since a keyword has to be a whole word
(`endsInKeyword_iff`).
-/

set_option autoImplicit false

namespace Minifier.JavaScript

open Text Comment

/-! ## Whole words -/

/-- A text that ends in a keyword, as a whole word: what stands before the keyword does not end with
a word character. -/
def EndsInKeyword (text : Text) : Prop :=
  ∃ front, ∃ word ∈ ["if", "else", "for", "while", "switch", "catch", "function"].map ofString,
    text = front ++ word ∧ ∀ a ∈ front.getLast?, a.isWord = false

/-- The word characters that a text ends with, nearest first. -/
def lastWord (text : Text) : Text :=
  text.reverse.takeWhile Glyph.isWord

theorem lastWord_append_singleton (text : Text) (g : Glyph) :
    lastWord (text ++ [g]) = wordThrough (lastWord text) g := by
  rw [lastWord, wordThrough, lastWord, List.reverse_append, List.reverse_singleton,
    List.singleton_append, List.takeWhile_cons]

theorem isWord_of_mem_keywords : ∀ word ∈ keywords, ∀ g ∈ word, g.isWord = true := by
  decide +kernel

/-- A text ends in a keyword iff the longest word at its end is one. -/
theorem endsInKeyword_iff (text : Text) :
    EndsInKeyword text ↔ (lastWord text).reverse ∈ keywords := by
  constructor
  · rintro ⟨front, word, hword, rfl, hfront⟩
    have hall : ∀ g ∈ word.reverse, g.isWord = true := by
      intro g hg
      exact isWord_of_mem_keywords word hword g (List.mem_reverse.1 hg)
    have hstop : front.reverse.takeWhile Glyph.isWord = [] := by
      rw [← List.head?_reverse] at hfront
      cases hrev : front.reverse with
      | nil => rfl
      | cons a others => exact List.takeWhile_cons_of_neg (by simp [hfront a (by simp [hrev])])
    rw [lastWord, List.reverse_append, List.takeWhile_append_of_pos hall, hstop, List.append_nil,
      List.reverse_reverse]
    exact hword
  · intro hword
    refine ⟨(text.reverse.dropWhile Glyph.isWord).reverse, _, hword, ?_, ?_⟩
    · rw [lastWord, ← List.reverse_append, List.takeWhile_append_dropWhile, List.reverse_reverse]
    · intro a ha
      rw [List.getLast?_reverse, Option.mem_def] at ha
      have hout := List.head?_dropWhile_not Glyph.isWord text.reverse
      simpa [ha] using hout

instance (text : Text) : Decidable (EndsInKeyword text) :=
  decidable_of_iff _ (endsInKeyword_iff text).symm

/-! ## Spaces behind keywords -/

/-- A glyph with a space before it, if it is an opening parenthesis and a keyword stands directly
before it. -/
def withKeywordSpace (before : Text) (g : Glyph) : Text :=
  if g = .char '(' ∧ EndsInKeyword before then [.char ' ', g] else [g]

/-- A text with a space before every opening parenthesis that a keyword stands directly before. -/
def withKeywordSpaces (text : Text) : Text :=
  (text.inits.zip text).flatMap fun place => withKeywordSpace place.1 place.2

/-- The last word of the text before says whether a space is written. -/
theorem withKeywordSpace_eq (before : Text) (g : Glyph) :
    withKeywordSpace before g = keywordSpace (lastWord before) g ++ [g] := by
  rw [withKeywordSpace, keywordSpace]
  by_cases h : g = .char '(' ∧ EndsInKeyword before
  · have hmem := (endsInKeyword_iff before).1 h.2
    rw [if_pos h, if_pos (by simp [h.1, hmem])]
    rfl
  · have hmem : ¬ (g = .char '(' ∧ (lastWord before).reverse ∈ keywords) := by
      rwa [← endsInKeyword_iff]
    rw [if_neg h, if_neg (by simpa using hmem)]
    rfl

/-- The reader that knows the last word of the text before writes the space that the whole text
before asks for. -/
theorem spaceKeywordsFrom_lastWord_cons (before : Text) (g : Glyph) (rest : Text) :
    spaceKeywordsFrom (lastWord before) (g :: rest) =
      withKeywordSpace before g ++ spaceKeywordsFrom (lastWord (before ++ [g])) rest := by
  rw [spaceKeywordsFrom_cons, withKeywordSpace_eq, lastWord_append_singleton, List.append_assoc,
    List.singleton_append]

theorem spaceKeywordsFrom_eq_flatMap (text before : Text) :
    spaceKeywordsFrom (lastWord before) text =
      ((text.inits.map (before ++ ·)).zip text).flatMap fun place =>
        withKeywordSpace place.1 place.2 := by
  induction text generalizing before with
  | nil => rfl
  | cons g rest ih =>
    have hmap : (rest.inits.map (g :: ·)).map (before ++ ·) =
        rest.inits.map ((before ++ [g]) ++ ·) := by
      simp
    rw [spaceKeywordsFrom_lastWord_cons, ih, ← hmap, List.inits_cons, List.map_cons,
      List.append_nil, List.zip_cons_cons, List.flatMap_cons]

theorem spaceKeywords_eq_withKeywordSpaces (text : Text) :
    spaceKeywords text = withKeywordSpaces text := by
  have h := spaceKeywordsFrom_eq_flatMap text []
  simp only [List.nil_append, List.map_id'] at h
  exact h

/-! ## No keyword before a parenthesis -/

theorem endsInKeyword_congr {text text' : Text} (h : lastWord text = lastWord text') :
    EndsInKeyword text ↔ EndsInKeyword text' := by
  rw [endsInKeyword_iff, endsInKeyword_iff, h]

/-- Behind a glyph that is no word character no word has begun. -/
theorem lastWord_append_break {g : Glyph} (hg : g.isWord = false) (text : Text) :
    lastWord (text ++ [g]) = [] := by
  rw [lastWord_append_singleton, wordThrough, hg]
  rfl

theorem not_endsInKeyword_of_break {g : Glyph} (hg : g.isWord = false) (text : Text) :
    ¬ EndsInKeyword (text ++ [g]) := by
  rw [endsInKeyword_iff, lastWord_append_break hg]
  decide

/-- A keyword is kept away from an opening parenthesis by the space that is written between them.
`read` is the text so far, and `written` what it has become. -/
theorem not_endsInKeyword_of_spaceKeywordsFrom {text written read before after : Text}
    (hword : lastWord written = lastWord read)
    (h : spaceKeywordsFrom (lastWord read) text = before ++ .char '(' :: after) :
    ¬ EndsInKeyword (written ++ before) := by
  have hparen : (Glyph.char '(').isWord = false := by decide
  have hblank : (Glyph.char ' ').isWord = false := by decide
  induction text generalizing written read before with
  | nil => simp [spaceKeywordsFrom] at h
  | cons g rest ih =>
    rw [spaceKeywordsFrom_lastWord_cons, withKeywordSpace] at h
    split_ifs at h with hspace
    · -- the parenthesis is this one, behind the space, or comes later
      obtain ⟨rfl, -⟩ := hspace
      cases before with
      | nil => simp at h
      | cons c before =>
        rw [List.cons_append, List.singleton_append, List.cons_append] at h
        obtain ⟨rfl, hparenthesis⟩ := List.cons.inj h
        cases before with
        | nil => exact not_endsInKeyword_of_break hblank written
        | cons d before =>
          obtain ⟨rfl, hbehind⟩ := List.cons.inj hparenthesis
          have hlast : lastWord (written ++ [.char ' '] ++ [.char '(']) =
              lastWord (read ++ [.char '(']) := by
            rw [lastWord_append_break hparen, lastWord_append_break hparen]
          have hrest := ih hlast hbehind
          simpa using hrest
    · cases before with
      | nil =>
        obtain rfl : g = .char '(' := (List.cons.inj h).1
        rw [List.append_nil, endsInKeyword_congr hword]
        exact fun hkeyword => hspace ⟨rfl, hkeyword⟩
      | cons c before =>
        simp only [List.cons_append, List.nil_append, List.cons.injEq] at h
        obtain ⟨rfl, h⟩ := h
        have hlast : lastWord (written ++ [g]) = lastWord (read ++ [g]) := by
          rw [lastWord_append_singleton, lastWord_append_singleton, hword]
        have hrest := ih hlast h
        simpa using hrest

/-! ## The whole script -/

/-- One space where a blank but no line feed stood between two glyphs that are no operators, and
nothing elsewhere. -/
def spaceInLine (a : Glyph) (gap : Text) (b : Glyph) : Text :=
  if gap.contains (.char '\n') then []
  else spaceBetween "=+-*/%&|^!<>\x7b\x7d()[];:,." a gap b

/-- Joining lines and compacting write the ink in a row. -/
theorem respace_vanishes_eq_laidOut (text : Text) :
    respace (spaceUnless vanishes) text = laidOut spaceInLine (spread keepsInk text).2 := by
  have hedge : ∀ gap : Gap, gap.atEdge = true → vanishes gap = true := by
    intro gap hgap
    simp [vanishes, hgap]
  rw [respace_spaceUnless_eq_laidOut isLocal_vanishes hedge]
  congr 1
  funext a gap b
  have hfeed : (gap.filter Glyph.isBlank).contains (.char '\n') = gap.contains (.char '\n') := by
    rw [Bool.eq_iff_iff, List.contains_iff_mem, List.contains_iff_mem, List.mem_filter]
    exact and_iff_left (by decide)
  rw [spaceInLine, spaceBetween, vanishes, hfeed]
  cases gap.contains (.char '\n') with
  | true => simp
  | false => simp [Gap.atEdge, Gap.touches, operators, Bool.and_assoc]

/-- Minified JavaScript is the ink of the text without its comments, with one space between two
glyphs where a blank but no line feed stood and neither of them is an operator, and then with a
space before every opening parenthesis that a keyword stands directly before. Nothing but comments
and blanks is left out, and no keyword stands directly before an opening parenthesis. -/
theorem minify_lays_out_joined_lines (text : Text) :
    ∃ codes, (∀ codes', SlashCut text codes' ↔ codes' = codes) ∧
      minify text =
        withKeywordSpaces (laidOut spaceInLine (spread keepsInk codes.flatten).2) ∧
      ink (minify text) = ink codes.flatten ∧
      ¬ ∃ before after, minify text = before ++ .char '(' :: after ∧ EndsInKeyword before := by
  obtain ⟨codes, hcut⟩ := exists_slashCut_iff text
  have hcode : stripSlashComments text = codes.flatten := flatten_of_slashCut ((hcut codes).2 rfl)
  have hminify : minify text =
      spaceKeywords (laidOut spaceInLine (spread keepsInk codes.flatten).2) := by
    rw [minify_eq, hcode, respace_vanishes_eq_laidOut]
  refine ⟨codes, hcut, ?_, ?_, ?_⟩
  · rw [hminify, spaceKeywords_eq_withKeywordSpaces]
  · rw [ink_minify, hcode]
  · rintro ⟨before, after, hafter, hkeyword⟩
    rw [hminify] at hafter
    have hempty : lastWord ([] : Text) = lastWord ([] : Text) := rfl
    exact not_endsInKeyword_of_spaceKeywordsFrom hempty hafter hkeyword

/-- Lines are joined before keywords are looked for, so that a line feed inside a word is no way to
hide one. -/
example : minify (.ofString "i\nf ( a ) x = 1 /* */ y\nfor(;;) of(b)") =
    .ofString "if (a)x=1 yfor(;;)of(b)" := by
  decide +kernel

end Minifier.JavaScript
