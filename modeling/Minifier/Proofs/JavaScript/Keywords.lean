import Minifier.Language.JavaScript
import Minifier.Proofs.Text.Neighbours
import Minifier.Proofs.Text.Words

/-!
# Spaces behind keywords

`JavaScript.spaceKeywords` writes spaces and nothing else, each between a word character and an
opening parenthesis (`spaceKeywordsFrom_cons`, `keywordSpace_cases`). So it keeps
the ink (`ink_spaceKeywords`), it leaves the ends of a text alone (`strip_spaceKeywords`), and a
respacing that deletes the gaps before an opening parenthesis takes its spaces away again
(`respace_spaceKeywords`).
-/

set_option autoImplicit false

namespace Minifier.JavaScript

open Text

/-- The space that is written before the glyph `g` when the word read so far is `word`. -/
def keywordSpace (word : Text) (g : Glyph) : Text :=
  if g = .char '(' && keywords.contains word.reverse then [.char ' '] else []

/-- The word that is read when the glyph `g` is read behind `word`. -/
def wordThrough (word : Text) (g : Glyph) : Text :=
  if g.isWord then g :: word else []

/-- Every glyph is kept, with at most one space before it. -/
theorem spaceKeywordsFrom_cons (word : Text) (g : Glyph) (rest : Text) :
    spaceKeywordsFrom word (g :: rest) =
      keywordSpace word g ++ g :: spaceKeywordsFrom (wordThrough word g) rest := by
  have hparen : (Glyph.char '(').isWord = false := by decide
  rw [spaceKeywordsFrom, keywordSpace, wordThrough]
  split
  · next h =>
    have hg : g = .char '(' := by simpa using (Bool.and_eq_true_iff.1 h).1
    rw [hg, hparen]
    rfl
  · rfl

theorem keywordSpace_nil (g : Glyph) : keywordSpace [] g = [] := by
  have hempty : keywords.contains ([] : Text).reverse = false := by decide
  rw [keywordSpace, hempty, Bool.and_false]
  rfl

/-- A space is written behind a word only, and before an opening parenthesis only. -/
theorem keywordSpace_cases (word : Text) (g : Glyph) :
    keywordSpace word g = [] ∨
      keywordSpace word g = [.char ' '] ∧ word ≠ [] ∧ g = .char '(' := by
  cases word with
  | nil => exact Or.inl (keywordSpace_nil g)
  | cons a word =>
    rw [keywordSpace]
    split
    · next h =>
      have hg : g = .char '(' := by simpa using (Bool.and_eq_true_iff.1 h).1
      exact Or.inr ⟨rfl, List.cons_ne_nil a word, hg⟩
    · exact Or.inl rfl

theorem keywordSpace_isRun (word : Text) (g : Glyph) : IsRun (keywordSpace word g) := by
  rcases keywordSpace_cases word g with hnone | ⟨hspace, -⟩
  · rw [hnone]
    exact isRun_nil
  · rw [hspace]
    exact isRun_space

/-! ## Across a gap -/

/-- The word that reaches the end of a run of blanks. -/
def wordBehind (word run : Text) : Text :=
  if run.isEmpty then word else []

theorem wordBehind_nil (run : Text) : wordBehind [] run = [] := by
  rw [wordBehind]
  split <;> rfl

theorem spaceKeywordsFrom_run_append (word : Text) {run : Text} (h : IsRun run) (rest : Text) :
    spaceKeywordsFrom word (run ++ rest) =
      run ++ spaceKeywordsFrom (wordBehind word run) rest := by
  induction run generalizing word with
  | nil => rfl
  | cons g run ih =>
    obtain ⟨hg, hrun⟩ := isRun_cons.1 h
    have hspace : keywordSpace word g = [] := by
      rcases keywordSpace_cases word g with hnone | ⟨-, -, hparen⟩
      · exact hnone
      · exact absurd hparen (ne_of_isBlank hg (by decide))
    have hword : wordThrough word g = [] := by
      rw [wordThrough, Glyph.isWord_eq_false_of_isBlank hg]
      rfl
    rw [List.cons_append, spaceKeywordsFrom_cons, hspace, hword, ih [] hrun, wordBehind_nil]
    rfl

/-- A gap, the glyph behind it and the space that may be written between them. -/
theorem spaceKeywordsFrom_ink (word : Text) {run : Text} (h : IsRun run) (g : Glyph)
    (rest : Text) :
    spaceKeywordsFrom word (run ++ g :: rest) =
      (run ++ keywordSpace (wordBehind word run) g) ++
        g :: spaceKeywordsFrom (wordThrough (wordBehind word run) g) rest := by
  rw [spaceKeywordsFrom_run_append word h, spaceKeywordsFrom_cons, List.append_assoc]

theorem spaceKeywordsFrom_run (word : Text) {run : Text} (h : IsRun run) :
    spaceKeywordsFrom word run = run := by
  have hread := spaceKeywordsFrom_run_append word h []
  rwa [List.append_nil, spaceKeywordsFrom, List.append_nil] at hread

/-- The space behind a keyword stands where no gap is. -/
theorem gap_cases (word run : Text) (g : Glyph) :
    keywordSpace (wordBehind word run) g = [] ∨
      run = [] ∧ keywordSpace word g = [.char ' '] ∧ word ≠ [] ∧ g = .char '(' := by
  cases run with
  | cons b run => exact Or.inl (keywordSpace_nil g)
  | nil =>
    rcases keywordSpace_cases word g with hnone | hspace
    · exact Or.inl hnone
    · exact Or.inr ⟨rfl, hspace⟩

/-! ## What the spaces leave alone -/

/-- The ink of a text is kept. -/
theorem ink_spaceKeywordsFrom (word text : Text) :
    ink (spaceKeywordsFrom word text) = ink text := by
  induction text generalizing word with
  | nil => rfl
  | cons g rest ih =>
    rw [spaceKeywordsFrom_cons, ink_append, (keywordSpace_isRun word g).ink_eq_nil, List.nil_append]
    cases hg : g.isBlank with
    | true => rw [ink_cons_of_blank hg, ink_cons_of_blank hg, ih]
    | false => rw [ink_cons_of_ink hg, ink_cons_of_ink hg, ih]

theorem ink_spaceKeywords (text : Text) : ink (spaceKeywords text) = ink text :=
  ink_spaceKeywordsFrom [] text

/-- A rule that deletes the gaps before an opening parenthesis deletes the spaces behind keywords
with them. -/
theorem respace_spaceKeywords {rule : Gap → Text} (hlocal : Gap.IsLocal rule)
    (hparen : ∀ gap : Gap, gap.after.head? = some (.char '(') → rule gap = []) (text : Text) :
    respace rule (spaceKeywords text) = respace rule text := by
  have key : ∀ word before before' : Text, before.head? = before'.head? →
      respaceFrom rule before [] (spaceKeywordsFrom word text) =
        respaceFrom rule before' [] text := by
    induction text using gap_induction with
    | run run hrun =>
      intro word before before' hbefore
      rw [spaceKeywordsFrom_run word hrun, respaceFrom_run rule before hrun,
        respaceFrom_run rule before' hrun]
      exact fill_congr_of_isLocal hlocal hbefore rfl run
    | glyph run g rest hrun hg ih =>
      intro word before before' hbefore
      have hgap := isRun_append.2 ⟨hrun, keywordSpace_isRun (wordBehind word run) g⟩
      rw [spaceKeywordsFrom_ink word hrun, respaceFrom_ink rule before hgap hg,
        respaceFrom_ink rule before' hrun hg]
      congr 1
      · -- the gap before `g`, which may be nothing but the space behind a keyword
        rcases gap_cases word run g with hnone | ⟨rfl, hspace, -, rfl⟩
        · rw [hnone, List.append_nil]
          exact fill_congr_of_isLocal hlocal hbefore (by rfl) run
        · rw [List.nil_append, fill_nil, wordBehind, List.isEmpty_nil, if_pos rfl, hspace,
            fill_of_ne_nil rule _ _ (List.cons_ne_nil _ _)]
          exact hparen _ rfl
      · exact congrArg (g :: ·) (ih _ _ _ (by rfl))
  exact key [] [] [] rfl

/-- Stripping and writing the spaces commute: no space is written at an end of the text. -/
theorem strip_spaceKeywords (text : Text) :
    strip (spaceKeywords text) = spaceKeywords (strip text) := by
  -- Before the first glyph of ink no word is read.
  have key : ∀ word before before' : Text, before.isEmpty = before'.isEmpty →
      (before.isEmpty = true → word = []) →
      respaceFrom stripRule before [] (spaceKeywordsFrom word text) =
        spaceKeywordsFrom word (respaceFrom stripRule before' [] text) := by
    induction text using gap_induction with
    | run run hrun =>
      intro word before before' _ _
      rw [spaceKeywordsFrom_run word hrun, respaceFrom_run stripRule before hrun,
        respaceFrom_run stripRule before' hrun, fill_stripRule_end, fill_stripRule_end]
      rfl
    | glyph run g rest hrun hg ih =>
      intro word before before' hbefore hword
      have hgap := isRun_append.2 ⟨hrun, keywordSpace_isRun (wordBehind word run) g⟩
      have hbehind : ∀ word before before' : Text,
          respaceFrom stripRule (g :: before) [] (spaceKeywordsFrom word rest) =
            spaceKeywordsFrom word (respaceFrom stripRule (g :: before') [] rest) :=
        fun word before before' => ih word (g :: before) (g :: before') rfl (by simp)
      rw [spaceKeywordsFrom_ink word hrun, respaceFrom_ink stripRule before hgap hg,
        respaceFrom_ink stripRule before' hrun hg, fill_stripRule_cons, fill_stripRule_cons,
        hbehind _ _ (run.reverse ++ before'), ← hbefore]
      cases hedge : before.isEmpty with
      | true =>
        -- the text opens with this gap, so no keyword is before it
        rw [hword hedge, wordBehind_nil, if_pos rfl, if_pos rfl, List.nil_append, List.nil_append,
          spaceKeywordsFrom_cons, keywordSpace_nil, List.nil_append]
      | false =>
        rw [if_neg Bool.false_ne_true, if_neg Bool.false_ne_true, spaceKeywordsFrom_ink word hrun]
  exact key [] [] [] rfl fun _ => rfl

/-- Glyphs that are no word characters keep the ink behind them. -/
theorem inkBehind_spaceKeywords {p : Glyph → Prop} (hp : ∀ g : Glyph, g.isWord = true → ¬ p g)
    {text : Text} (h : InkBehind p text) : InkBehind p (spaceKeywords text) := by
  have key : ∀ word : Text, InkBehind p (spaceKeywordsFrom word text) := by
    induction text with
    | nil => exact fun _ => List.IsChain.nil
    | cons g rest ih =>
      intro word
      rw [InkBehind, List.isChain_cons] at h
      have htail : InkBehind p (g :: spaceKeywordsFrom (wordThrough word g) rest) := by
        rw [InkBehind, List.isChain_cons]
        refine ⟨fun b hb hpg => ?_, ih h.2 _⟩
        -- behind a glyph that is no word character no word ends, so no space is written
        have hword : wordThrough word g = [] := by
          rw [wordThrough, if_neg fun hg => hp g hg hpg]
        rw [hword] at hb
        cases rest with
        | nil => simp [spaceKeywordsFrom] at hb
        | cons c rest =>
          rw [spaceKeywordsFrom_cons, keywordSpace_nil, List.nil_append, List.head?_cons,
            Option.mem_some_iff] at hb
          exact hb ▸ h.1 c rfl hpg
      rw [spaceKeywordsFrom_cons]
      rcases keywordSpace_cases word g with hnone | ⟨hspace, -, rfl⟩
      · rwa [hnone]
      · -- behind the new space stands the parenthesis
        rw [hspace, List.singleton_append, InkBehind, List.isChain_cons]
        refine ⟨fun b hb _ => ?_, htail⟩
        rw [List.head?_cons, Option.mem_some_iff] at hb
        rw [← hb]
        decide
  exact key []

end Minifier.JavaScript
