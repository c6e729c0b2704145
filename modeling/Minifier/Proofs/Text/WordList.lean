import Mathlib.Data.List.Chain
import Minifier.Proofs.Text.Respacing
import Minifier.Proofs.Text.Words

/-!
# The words of a text

`Text.words` lists the maximal runs of word characters of a text. A glyph that is no word character
ends a word (`words_append_cons`), so the words of two texts are those of the text they make up,
unless the last word of the first text goes on in the second one (`words_append_iff`). For many
texts put together this has to hold of all that become neighbours (`words_flatten_iff`).
Respacing keeps the words if no gap between two word characters vanishes (`words_respace`).
-/

set_option autoImplicit false

namespace Minifier

namespace Text

/-- The words of a text: its maximal runs of word characters, in their order. -/
def words (text : Text) : List Text :=
  (text.splitOnP fun g => !g.isWord).filter fun run => !run.isEmpty

/-- Two texts put together have no word in common: the first one does not end with a word
character, or the second one does not start with one. -/
def Apart (text text' : Text) : Prop :=
  ∀ a ∈ text.getLast?, ∀ b ∈ text'.head?, a.isWord = true → b.isWord = false

/-- Texts of which no two have a word in common when all of them are put together: only empty ones
may stand between two that are neighbours. -/
def AllApart (texts : List Text) : Prop :=
  (texts.filter fun text => !text.isEmpty).IsChain Apart

variable {text text' : Text}

/-! ## Glyph by glyph -/

@[simp]
theorem words_nil : words [] = [] := by
  simp [words]

/-- A glyph that is no word character stands between two words. Everything else about words follows
from this equation and from `words_singleton_append`. -/
theorem words_append_cons {g : Glyph} (hg : g.isWord = false) (text text' : Text) :
    words (text ++ g :: text') = words text ++ words text' := by
  rw [words, List.splitOnP_append_cons text text' (by simp [hg]), List.filter_append]
  rfl

theorem words_cons_of_break {g : Glyph} (hg : g.isWord = false) (text : Text) :
    words (g :: text) = words text := by
  have h := words_append_cons hg [] text
  simpa using h

theorem words_singleton {g : Glyph} (hg : g.isWord = true) : words [g] = [[g]] := by
  simp [words, List.splitOnP_cons_eq_if_modifyHead, hg]

/-- A word character before another one makes its word longer. -/
theorem length_words_cons_cons {g b : Glyph} (hg : g.isWord = true) (hb : b.isWord = true)
    (text : Text) : (words (g :: b :: text)).length = (words (b :: text)).length := by
  have hsplit := List.splitOnP_ne_nil (fun g : Glyph => !g.isWord) text
  obtain ⟨first, others, hparts⟩ := List.exists_cons_of_ne_nil hsplit
  simp [words, List.splitOnP_cons_eq_if_modifyHead, hg, hb, hparts]

/-- One glyph more is one word more iff it is a word character and no other one follows. -/
theorem length_words_cons (g : Glyph) (text : Text) :
    (words (g :: text)).length =
      (words text).length + if g.isWord && !text.head?.any Glyph.isWord then 1 else 0 := by
  cases hg : g.isWord with
  | false => simp [words_cons_of_break hg]
  | true =>
    cases text with
    | nil => simp [words_singleton hg]
    | cons b text =>
      cases hb : b.isWord with
      | true => simp [length_words_cons_cons hg hb, hb]
      | false =>
        have h := words_append_cons hb [g] text
        rw [List.singleton_append, words_singleton hg] at h
        simp [h, words_cons_of_break hb, hb, Nat.add_comm]

/-! ## Two texts -/

theorem words_append_of_apart (h : Apart text text') :
    words (text ++ text') = words text ++ words text' := by
  cases text' with
  | nil => simp
  | cons b rest =>
    cases hb : b.isWord with
    | false => rw [words_append_cons hb, words_cons_of_break hb]
    | true =>
      rcases List.eq_nil_or_concat' text with rfl | ⟨front, a, rfl⟩
      · simp
      · have ha : a.isWord = false := by
          by_contra hword
          rw [Bool.not_eq_false] at hword
          rw [h a (by simp) b (by simp) hword] at hb
          exact Bool.false_ne_true hb
        have hfront := words_append_cons ha front []
        rw [words_nil, List.append_nil] at hfront
        rw [List.append_assoc, List.singleton_append, words_append_cons ha, hfront]

/-- Where two texts share a word, putting them together counts it once. -/
theorem length_words_append_of_not_apart (h : ¬ Apart text text') :
    (words (text ++ text')).length + 1 = (words text).length + (words text').length := by
  simp only [Apart, not_forall, Bool.not_eq_false] at h
  obtain ⟨a, ha, b, hb, haword, hbword⟩ := h
  induction text with
  | nil => simp at ha
  | cons c rest ih =>
    cases rest with
    | nil =>
      obtain rfl : c = a := by simpa using ha
      rw [Option.mem_def] at hb
      simp [length_words_cons, haword, hb, hbword]
      omega
    | cons d rest =>
      have hlast : a ∈ (d :: rest).getLast? := by simpa using ha
      have hrest := ih hlast
      have hstart : (d :: rest ++ text').head? = (d :: rest).head? := rfl
      rw [List.cons_append, length_words_cons c (d :: rest ++ text'), hstart,
        length_words_cons c (d :: rest)]
      omega

theorem length_words_append_le (text text' : Text) :
    (words (text ++ text')).length ≤ (words text).length + (words text').length := by
  by_cases h : Apart text text'
  · rw [words_append_of_apart h, List.length_append]
  · have hmeet := length_words_append_of_not_apart h
    omega

/-- The words of two texts put together are the words of both iff the texts share no word. -/
theorem words_append_iff (text text' : Text) :
    words (text ++ text') = words text ++ words text' ↔ Apart text text' := by
  constructor
  · intro h
    by_contra hmeet
    have hlength := length_words_append_of_not_apart hmeet
    rw [h, List.length_append] at hlength
    omega
  · exact words_append_of_apart

/-! ## Many texts -/

theorem length_words_flatten_le (texts : List Text) :
    (words texts.flatten).length ≤ (texts.flatMap words).length := by
  induction texts with
  | nil => simp
  | cons text rest ih =>
    have hstep := length_words_append_le text rest.flatten
    rw [List.flatten_cons, List.flatMap_cons, List.length_append]
    omega

/-- A text has something in common with the texts behind it iff it has with the next one. -/
theorem apart_flatten_iff {next : Text} (hne : next ≠ []) (rest : List Text) :
    Apart text (next :: rest).flatten ↔ Apart text next := by
  obtain ⟨b, others, rfl⟩ := List.exists_cons_of_ne_nil hne
  rfl

/-- Texts without empty ones among them keep their words when they are put together iff no two
neighbours share a word. -/
theorem words_flatten_iff_of_ne_nil {texts : List Text} (hne : ∀ text ∈ texts, text ≠ []) :
    words texts.flatten = texts.flatMap words ↔ texts.IsChain Apart := by
  induction texts with
  | nil => simp
  | cons text rest ih =>
    have hrest := ih fun next hnext => hne next (List.mem_cons_of_mem _ hnext)
    cases rest with
    | nil => simp
    | cons next rest =>
      have hnext : next ≠ [] := hne next (by simp)
      rw [List.isChain_cons_cons, ← hrest, ← apart_flatten_iff hnext rest, List.flatten_cons,
        List.flatMap_cons]
      constructor
      · intro h
        -- sharing a word would make the whole list shorter
        have hapart : Apart text (next :: rest).flatten := by
          by_contra hmeet
          have hlength := length_words_append_of_not_apart hmeet
          have hle := length_words_flatten_le (next :: rest)
          rw [h, List.length_append] at hlength
          omega
        rw [words_append_of_apart hapart] at h
        exact ⟨hapart, List.append_cancel_left h⟩
      · rintro ⟨hapart, hwords⟩
        rw [words_append_of_apart hapart, hwords]

/-- Texts keep their words when they are put together iff no two of them share a word. -/
theorem words_flatten_iff (texts : List Text) :
    words texts.flatten = texts.flatMap words ↔ AllApart texts := by
  have hflatten : (texts.filter fun text => !text.isEmpty).flatten = texts.flatten :=
    List.flatten_filter_not_isEmpty
  have hwords : (texts.filter fun text => !text.isEmpty).flatMap words = texts.flatMap words := by
    induction texts with
    | nil => rfl
    | cons text rest ih => cases text <;> simp_all
  rw [← hflatten, ← hwords]
  refine words_flatten_iff_of_ne_nil ?_
  intro text htext
  simpa using (List.mem_filter.1 htext).2

/-! ## Across gaps -/

theorem IsRun.words_append {run : Text} (h : IsRun run) (text : Text) :
    words (run ++ text) = words text := by
  induction run with
  | nil => rfl
  | cons g run ih =>
    obtain ⟨hg, hrun⟩ := isRun_cons.1 h
    rw [List.cons_append, words_cons_of_break (Glyph.isWord_eq_false_of_isBlank hg), ih hrun]

/-- A gap keeps words apart, and so does an empty one between texts that share no word. -/
theorem words_across_run {run : Text} (hrun : IsRun run) (h : run = [] → Apart text text') :
    words (text ++ (run ++ text')) = words text ++ words text' := by
  cases run with
  | nil => exact words_append_of_apart (h rfl)
  | cons g run =>
    obtain ⟨hg, hbehind⟩ := isRun_cons.1 hrun
    rw [List.cons_append, words_append_cons (Glyph.isWord_eq_false_of_isBlank hg),
      hbehind.words_append]

/-- Respacing keeps the words if no gap between two word characters vanishes. -/
theorem words_respace {rule : Gap → Text} (hblank : Gap.WritesBlanks rule)
    (h : ∀ gap : Gap, gap.Proper → rule gap = [] →
      ∀ a ∈ gap.before.head?, ∀ b ∈ gap.after.head?, a.isWord = true → b.isWord = false)
    (text : Text) : words (respace rule text) = words text := by
  -- What is already written counts, since a word may go on behind it.
  have key : ∀ written before : Text, written.getLast? = before.head? →
      (∀ a ∈ before.head?, a.isBlank = false) →
      words (written ++ respaceFrom rule before [] text) = words (written ++ text) := by
    induction text using gap_induction with
    | run run hrun =>
      intro written before _ _
      have hend : ∀ {gap : Text}, IsRun gap → words (written ++ gap) = words written := by
        intro gap hgap
        have hwords : words (written ++ (gap ++ [])) = words written ++ words [] :=
          words_across_run hgap fun _ a _ b hb => absurd hb (by simp)
        simpa using hwords
      rw [respaceFrom_run rule before hrun, hend hrun, hend (isRun_fill hblank before [] hrun)]
    | glyph run g rest hrun hg ih =>
      intro written before hlast hink
      have hfill := isRun_fill hblank before (g :: rest) hrun
      have hbehind := ih (written ++ fill rule before run (g :: rest) ++ [g])
        (g :: (run.reverse ++ before)) (by simp) (by simpa using hg)
      rw [respaceFrom_ink rule before hrun hg]
      simp only [List.append_assoc, List.singleton_append] at hbehind ⊢
      rw [hbehind]
      cases run with
      | nil => rfl
      | cons b run =>
        have hapart : fill rule before (b :: run) (g :: rest) = [] →
            Apart written (g :: rest) := by
          intro hvanish a ha c hc
          rw [hlast] at ha
          exact h ⟨before, b :: run, g :: rest⟩ ⟨by simp, hrun, hink, by simpa using hg⟩ hvanish
            a ha c hc
        rw [words_across_run hfill hapart, words_across_run hrun (by simp)]
  exact key [] [] rfl (by simp)

end Text

end Minifier
