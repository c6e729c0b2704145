import Minifier.Minify
import Minifier.Proofs.Css.FixedPoint
import Minifier.Proofs.JavaScript.Content
import Minifier.Proofs.Php.FixedPoint
import Minifier.Proofs.Sql.Passes
import Minifier.Proofs.Text.Size

/-!
# Sizes of minified texts

Minifying deletes glyphs and writes gaps as single spaces, and a space is a smallest glyph: no text
of PHP, SQL or CSS gets larger, in bytes. Only the spaces behind the keywords of JavaScript are new,
and each of them stands in the minified script between a keyword and an opening parenthesis
(`byteSize_minify_le`).
-/

set_option autoImplicit false

namespace Minifier

open Text Comment

/-- Writing gaps as spaces behind a deletion of glyphs makes no text larger. -/
theorem byteSize_respace_spaceUnless_le {kept text : Text} (h : kept.Sublist text)
    (vanishes : Gap → Bool) :
    byteSize (respace (spaceUnless vanishes) kept) ≤ byteSize text :=
  calc byteSize (respace (spaceUnless vanishes) kept)
      ≤ byteSize kept :=
        measure_respace_spaceUnless_le byteSize_append (fun g => g.one_le_byteSize) vanishes kept
    _ ≤ byteSize text := byteSize_le_of_sublist h

theorem Php.byteSize_minify_le (text : Text) : byteSize (Php.minify text) ≤ byteSize text := by
  rw [Php.minify_eq_respace]
  exact byteSize_respace_spaceUnless_le (stripSlashFrom_sublist .code text) _

theorem Sql.byteSize_minify_le (text : Text) : byteSize (Sql.minify text) ≤ byteSize text := by
  rw [Sql.minify, collapse_eq_respace]
  exact byteSize_respace_spaceUnless_le (stripDashFrom_sublist .code true text) _

theorem Css.byteSize_minify_le (text : Text) : byteSize (Css.minify text) ≤ byteSize text := by
  rw [Css.minify_eq]
  have hkept := (Css.dropLastSemicolons_sublist (stripBlocks text)).trans
    (stripBlocksFrom_sublist false text)
  exact byteSize_respace_spaceUnless_le hkept _

namespace JavaScript

/-- The number of places in a text, behind some text before it, where a keyword ends as a whole word
and is followed by one space and an opening parenthesis. -/
def spacedKeywordsAfter (before text : Text) : Nat :=
  ((text.inits.map (before ++ ·)).zip text.tails).countP fun place =>
    EndsInKeyword place.1 ∧ ofString " (" <+: place.2

/-- The number of places in a text where a keyword ends as a whole word and is followed by one space
and an opening parenthesis. -/
def spacedKeywords (text : Text) : Nat :=
  (text.inits.zip text.tails).countP fun place =>
    EndsInKeyword place.1 ∧ ofString " (" <+: place.2

theorem spacedKeywords_eq_after (text : Text) :
    spacedKeywords text = spacedKeywordsAfter [] text := by
  simp [spacedKeywords, spacedKeywordsAfter]

theorem spacedKeywordsAfter_cons (before : Text) (g : Glyph) (rest : Text) :
    spacedKeywordsAfter before (g :: rest) =
      spacedKeywordsAfter (before ++ [g]) rest +
        if EndsInKeyword before ∧ ofString " (" <+: g :: rest then 1 else 0 := by
  have hmap : (rest.inits.map (g :: ·)).map (before ++ ·) =
      rest.inits.map ((before ++ [g]) ++ ·) := by
    simp
  rw [spacedKeywordsAfter, List.inits_cons, List.map_cons, List.append_nil, hmap, List.tails_cons,
    List.zip_cons_cons, List.countP_cons, spacedKeywordsAfter]
  simp

/-- Every space that is written is counted behind it: `read` is the text so far, and `written` what
it has become. -/
theorem byteSize_spaceKeywordsFrom_le (text read written : Text)
    (hword : lastWord written = lastWord read) :
    byteSize (spaceKeywordsFrom (lastWord read) text) ≤
      byteSize text + spacedKeywordsAfter written (spaceKeywordsFrom (lastWord read) text) := by
  have hparen : (Glyph.char '(').isWord = false := by decide
  induction text generalizing read written with
  | nil => exact Nat.zero_le _
  | cons g rest ih =>
    rw [spaceKeywordsFrom_lastWord_cons, withKeywordSpace]
    split_ifs with hspace
    -- the new space is counted at the keyword in front of it, which ends what is written so far
    · obtain ⟨rfl, hkeyword⟩ := hspace
      have hrest := ih (read ++ [.char '(']) (written ++ [.char ' '] ++ [.char '('])
        (by rw [lastWord_append_break hparen, lastWord_append_break hparen])
      generalize spaceKeywordsFrom (lastWord (read ++ [.char '('])) rest = behind at hrest ⊢
      have hcounted : EndsInKeyword written ∧
          ofString " (" <+: .char ' ' :: .char '(' :: behind :=
        ⟨(endsInKeyword_congr hword).2 hkeyword, behind, rfl⟩
      have hsize : (Glyph.char ' ').byteSize = 1 := rfl
      rw [List.cons_append, List.singleton_append, spacedKeywordsAfter_cons, if_pos hcounted,
        spacedKeywordsAfter_cons, byteSize_cons, byteSize_cons, byteSize_cons, hsize]
      omega
    -- a glyph that is copied may be counted too, which only makes the bound larger
    · have hrest := ih (read ++ [g]) (written ++ [g])
        (by rw [lastWord_append_singleton, lastWord_append_singleton, hword])
      rw [List.singleton_append, spacedKeywordsAfter_cons, byteSize_cons, byteSize_cons]
      omega

theorem byteSize_minify_le (text : Text) :
    byteSize (minify text) ≤ byteSize text + spacedKeywords (minify text) := by
  rw [minify_eq, spacedKeywords_eq_after]
  calc byteSize (spaceKeywords (respace (spaceUnless vanishes) (stripSlashComments text)))
      ≤ byteSize (respace (spaceUnless vanishes) (stripSlashComments text)) +
          spacedKeywordsAfter []
            (spaceKeywords (respace (spaceUnless vanishes) (stripSlashComments text))) :=
        byteSize_spaceKeywordsFrom_le _ [] [] rfl
    _ ≤ _ := Nat.add_le_add_right
        (byteSize_respace_spaceUnless_le (stripSlashFrom_sublist .code text) vanishes) _

end JavaScript

/-- Minifying makes no text of PHP, SQL or CSS larger. A script grows by no more bytes than there
are keywords, as whole words, in front of one space and an opening parenthesis in what it
becomes. -/
theorem minify_does_not_grow (text : Text) :
    byteSize (minify .php text) ≤ byteSize text ∧
      byteSize (minify .sql text) ≤ byteSize text ∧
      byteSize (minify .css text) ≤ byteSize text ∧
      byteSize (minify .javaScript text) ≤
        byteSize text + JavaScript.spacedKeywords (minify .javaScript text) :=
  ⟨Php.byteSize_minify_le text, Sql.byteSize_minify_le text, Css.byteSize_minify_le text,
    JavaScript.byteSize_minify_le text⟩

/-- A script that grows by as much as it can. -/
example : byteSize (minify .javaScript (ofString "if(a)while(b);")) =
    byteSize (ofString "if(a)while(b);") + 2 := by
  decide +kernel

end Minifier
