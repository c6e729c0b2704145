import Minifier.Minify
import Minifier.Proofs.Comment.Cut
import Minifier.Proofs.Php.FixedPoint
import Minifier.Proofs.Text.WordList

/-!
# The words of minified PHP and SQL

Whitespace never comes between two words in vain: a gap that vanishes from PHP touches punctuation
or an end of the text, and a gap inside SQL stays as a space. So minification has the words of what
is left when the comments are deleted (`Php.words_minify`, `Sql.words_minify`). These are the words
of the code between the comments exactly when no word ends at comments and another one starts behind
them (`words_minify_iff`); a block comment may stand alone between two words
(`words_meet_across_block`).
-/

set_option autoImplicit false

namespace Minifier

open Text Comment

/-! ## PHP -/

/-- No punctuation mark of PHP is a word character. -/
theorem Php.isWord_of_punctuation {g : Glyph} (h : oneOf punctuation g = true) :
    g.isWord = false := by
  have hall : ∀ mark ∈ ofString punctuation, mark.isWord = false := by decide +kernel
  rw [oneOf, List.contains_iff_mem] at h
  exact hall g h

/-- No gap between two word characters vanishes from PHP. -/
theorem Php.apart_of_vanishes {gap : Gap} (h : vanishes gap = true) {a b : Glyph}
    (ha : a ∈ gap.before.head?) (hb : b ∈ gap.after.head?) (hword : a.isWord = true) :
    b.isWord = false := by
  rw [vanishes, Gap.atEdge_eq_false ha hb, Bool.false_or] at h
  by_contra hbword
  rw [Bool.not_eq_false] at hbword
  have hno : ∀ {g : Glyph}, g.isWord = true → oneOf punctuation g = false := by
    intro g hg
    by_contra hmark
    rw [Bool.not_eq_false] at hmark
    rw [isWord_of_punctuation hmark] at hg
    exact Bool.false_ne_true hg
  rw [Gap.touches_eq_false ha hb (hno hword) (hno hbword)] at h
  exact Bool.false_ne_true h

/-- Minified PHP has the words that are left when the comments are deleted. -/
theorem Php.words_minify (text : Text) :
    words (Php.minify text) = words (stripSlashComments text) := by
  rw [minify_eq_respace]
  refine words_respace (writesBlanks_spaceUnless vanishes) ?_ _
  intro gap _ hnone a ha b hb
  refine apart_of_vanishes ?_ ha hb
  by_contra hstays
  rw [spaceUnless, if_neg hstays] at hnone
  exact List.cons_ne_nil _ _ hnone

/-! ## SQL -/

/-- Minified SQL has the words that are left when the comments are deleted. -/
theorem Sql.words_minify (text : Text) :
    words (Sql.minify text) = words (stripDashComments text) := by
  rw [minify, collapse_eq_respace]
  refine words_respace (writesBlanks_spaceUnless Gap.atEdge) ?_ _
  intro gap _ hnone a ha b hb
  -- a gap between two glyphs is at no end of the text, and stays
  rw [spaceUnless, Gap.atEdge_eq_false ha hb] at hnone
  exact absurd hnone (by simp)

/-! ## Words and comments -/

/-- Minification keeps the words of the code between the comments iff no word of one piece of code
goes on in the next one, for PHP with its slash comments and for SQL with its dash comments. -/
theorem words_minify_iff (text : Text) :
    ((∃ codes, SlashCut text codes) ∧ ∀ codes, SlashCut text codes →
      (words (minify .php text) = codes.flatMap words ↔ AllApart codes)) ∧
    ((∃ codes, DashCut text codes) ∧ ∀ codes, DashCut text codes →
      (words (minify .sql text) = codes.flatMap words ↔ AllApart codes)) := by
  refine ⟨⟨exists_slashCut text, ?_⟩, ⟨exists_dashCut text, ?_⟩⟩
  · intro codes hcut
    rw [minify, Php.words_minify, stripSlashComments, flatten_of_slashCut hcut, words_flatten_iff]
  · intro codes hcut
    rw [minify, Sql.words_minify, stripDashComments, flatten_of_dashCut hcut, words_flatten_iff]

/-- A line comment leaves its line feed, which keeps the words around it apart. -/
theorem words_stay_apart_across_line :
    SlashCut (ofString "a// x\nb") [ofString "a", ofString "\nb"] ∧
      AllApart [ofString "a", ofString "\nb"] ∧
        words (minify .php (ofString "a// x\nb")) =
          [ofString "a", ofString "\nb"].flatMap words := by
  have hcut : SlashCut (ofString "a// x\nb") [ofString "a", ofString "\nb"] := by
    refine .copy (by decide) (by decide) ?_
    show Cut opensSlashAt _ (ofString "// x" ++ ofString "\nb") _
    exact .line (by decide) (by decide) (by decide)
      (.copy (by decide) (by decide) (.copy (by decide) (by decide) .nil))
  have hapart : AllApart [ofString "a", ofString "\nb"] := by
    refine List.isChain_pair.2 fun a _ b hb _ => ?_
    obtain rfl : .char '\n' = b := Option.some.inj hb
    decide
  exact ⟨hcut, hapart, ((words_minify_iff _).1.2 _ hcut).2 hapart⟩

/-- Two words with nothing but a block comment between them become one. -/
theorem words_meet_across_block :
    (SlashCut (ofString "a/* x */b") [ofString "a", ofString "b"] ∧
      words (minify .php (ofString "a/* x */b")) = [ofString "ab"] ∧
      DashCut (ofString "a/* x */b") [ofString "a", ofString "b"] ∧
      words (minify .sql (ofString "a/* x */b")) = [ofString "ab"]) ∧
    [ofString "a", ofString "b"].flatMap words = [ofString "a", ofString "b"] := by
  have htext : ofString "a/* x */b" = .char 'a' :: .char '/' :: .char '*' ::
      (ofString " x " ++ .char '*' :: .char '/' :: [.char 'b']) := rfl
  have hbody : ¬ ofString "*/" <:+: ofString " x " := by decide
  have hslash : SlashCut (ofString "a/* x */b") [ofString "a", ofString "b"] := by
    rw [htext]
    exact .copy (by decide) (by decide) (.block hbody (.copy (by decide) (by decide) .nil))
  have hdash : DashCut (ofString "a/* x */b") [ofString "a", ofString "b"] := by
    rw [htext]
    exact .copy (by decide) (by decide) (.block hbody (.copy (by decide) (by decide) .nil))
  refine ⟨⟨hslash, ?_, hdash, ?_⟩, ?_⟩ <;> decide +kernel

end Minifier
