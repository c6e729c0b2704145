import Mathlib.Data.List.Chain
import Mathlib.Data.List.Infix
import Minifier.Proofs.Text.Respacing

/-!
# Closing gaps

A respacing that deletes some gaps and keeps all others closes them (`closing`). It makes neighbours
of glyphs that had blanks between them. Words whose own neighbours are never made in this way are
firm: none comes about where a gap is closed, and none is lost (`Firm.infix_respace_closing_iff`).

A rule may ask which firm words stand directly before and behind a gap, however long these are
(`SeesFirm`). Other gaps that are closed first make no difference to it, so that the gaps that two
such rules close one after the other are closed at once (`respace_closing_closing`).
-/

set_option autoImplicit false

namespace Minifier

namespace Text

/-- The rule that deletes the gaps that satisfy `closes`, and keeps all others. -/
def closing (closes : Gap → Bool) (gap : Gap) : Text :=
  if closes gap then [] else gap.run

/-- A word of ink in which each two neighbours are related. -/
structure Firm (R : Glyph → Glyph → Prop) (word : Text) : Prop where
  ink : ∀ g ∈ word, g.isBlank = false
  chain : word.IsChain R

/-- No gap between two related glyphs is closed. -/
def ClosesApart (R : Glyph → Glyph → Prop) (closes : Gap → Bool) : Prop :=
  ∀ gap : Gap, gap.Proper → closes gap = true →
    ∀ a ∈ gap.before.head?, ∀ b ∈ gap.after.head?, ¬ R a b

variable {R : Glyph → Glyph → Prop} {closes closes' : Gap → Bool} {word : Text}

theorem ClosesApart.or (h : ClosesApart R closes) (h' : ClosesApart R closes') :
    ClosesApart R fun gap => closes gap || closes' gap := by
  intro gap hgap hcloses
  rcases Bool.or_eq_true_iff.1 hcloses with hcloses | hcloses
  · exact h gap hgap hcloses
  · exact h' gap hgap hcloses

/-- The gaps at the ends of a text are between no two glyphs. -/
theorem closesApart_atEdge (R : Glyph → Glyph → Prop) : ClosesApart R Gap.atEdge := by
  intro gap _ hedge a ha b hb
  rw [Gap.atEdge_eq_false ha hb] at hedge
  exact absurd hedge Bool.false_ne_true

theorem writesBlanks_closing (closes : Gap → Bool) : Gap.WritesBlanks (closing closes) := by
  intro gap hrun
  rw [closing]
  exact isRun_ite_nil hrun _

theorem fill_closing (before run after : Text) :
    fill (closing closes) before run after =
      if closes ⟨before, run, after⟩ then [] else run := by
  cases run with
  | nil => exact (ite_self _).symm
  | cons g run => rfl

/-! ## Firm words -/

theorem Firm.tail {g : Glyph} (h : Firm R (g :: word)) : Firm R word :=
  ⟨fun a ha => h.ink a (List.mem_cons_of_mem g ha), h.chain.tail⟩

theorem firm_singleton {g : Glyph} (hg : g.isBlank = false) : Firm R [g] :=
  ⟨by simpa using hg, List.IsChain.singleton g⟩

/-- A firm word is firm in the other direction too. -/
theorem Firm.reverse (h : Firm R word) : Firm (fun a b => R b a) word.reverse := by
  constructor
  · intro g hg
    exact h.ink g (List.mem_reverse.1 hg)
  · exact List.isChain_reverse.2 h.chain

/-- A firm word does not begin where a blank is. -/
theorem Firm.prefix_cons_blank_iff (h : Firm R word) {b : Glyph} (hb : b.isBlank = true)
    (text : Text) : word <+: b :: text ↔ word = [] := by
  constructor
  · intro hprefix
    cases word with
    | nil => rfl
    | cons c word =>
      obtain ⟨rfl, -⟩ := List.cons_prefix_cons.1 hprefix
      exact absurd hb (by simp [h.ink c List.mem_cons_self])
  · rintro rfl
    exact List.nil_prefix

/-- A firm word that begins with a run of blanks and a text begins with the text, if at all. -/
theorem Firm.prefix_run_append_iff (h : Firm R word) {run : Text} (hrun : IsRun run)
    (hne : run ≠ []) (text : Text) : word <+: run ++ text ↔ word = [] := by
  obtain ⟨b, run, rfl⟩ := List.exists_cons_of_ne_nil hne
  exact h.prefix_cons_blank_iff (isRun_cons.1 hrun).1 (run ++ text)

/-- Blanks at the front of a text have no part in a firm word. -/
theorem Firm.infix_run_append_iff (h : Firm R word) (hword : word ≠ []) {run : Text}
    (hrun : IsRun run) (text : Text) : word <:+: run ++ text ↔ word <:+: text := by
  induction run with
  | nil => rfl
  | cons b run ih =>
    obtain ⟨hb, hrest⟩ := isRun_cons.1 hrun
    rw [List.cons_append, List.infix_cons_iff, h.prefix_cons_blank_iff hb, ih hrest]
    exact or_iff_right hword

/-! ## Words behind a gap -/

/-- The firm words that a text begins with are the same when gaps are closed behind its first
glyph. -/
theorem Firm.prefix_cons_iff (hword : Firm R word) (hcloses : ClosesApart R closes) {g : Glyph}
    (hg : g.isBlank = false) (before text : Text) :
    word <+: g :: respaceFrom (closing closes) (g :: before) [] text ↔ word <+: g :: text := by
  induction text using gap_induction generalizing word g before with
  | run run hrun =>
    rw [respaceFrom_run _ (g :: before) hrun, fill_closing]
    cases word with
    | nil => simp
    | cons c word =>
      rw [List.cons_prefix_cons, List.cons_prefix_cons]
      apply and_congr_right
      rintro rfl
      by_cases hne : run = []
      · simp [hne]
      · -- what a gap leaves is blank or nothing, and blanks are in no firm word
        have hblank := hword.tail.prefix_run_append_iff hrun hne []
        rw [List.append_nil] at hblank
        split_ifs
        · rw [hblank, List.prefix_nil]
        · rfl
  | glyph run h rest hrun hh ih =>
    rw [respaceFrom_ink _ (g :: before) hrun hh, fill_closing]
    cases word with
    | nil => simp
    | cons c word =>
      rw [List.cons_prefix_cons, List.cons_prefix_cons]
      apply and_congr_right
      rintro rfl
      by_cases hne : run = []
      · subst hne
        rw [ite_self]
        exact ih hword.tail hh (c :: before)
      · rw [hword.tail.prefix_run_append_iff hrun hne]
        split_ifs with hclosed
        · -- the two glyphs that the closed gap leaves side by side are in no firm word
          cases word with
          | nil => simp
          | cons d word =>
            apply iff_of_false
            · intro hprefix
              obtain ⟨rfl, -⟩ := List.cons_prefix_cons.1 hprefix
              have hgap : Gap.Proper ⟨c :: before, run, d :: rest⟩ :=
                ⟨hne, hrun, by simpa using hg, by simpa using hh⟩
              have hrelated : R c d := (List.isChain_cons_cons.1 hword.chain).1
              exact hcloses _ hgap hclosed c rfl d rfl hrelated
            · exact List.cons_ne_nil d word
        · exact hword.tail.prefix_run_append_iff hrun hne _

/-- Closing gaps brings no firm word about, and loses none. -/
theorem Firm.infix_respace_closing_iff (hword : Firm R word) (hne : word ≠ [])
    (hcloses : ClosesApart R closes) (text : Text) :
    word <:+: respace (closing closes) text ↔ word <:+: text := by
  have key : ∀ before : Text,
      word <:+: respaceFrom (closing closes) before [] text ↔ word <:+: text := by
    induction text using gap_induction with
    | run run hrun =>
      intro before
      have hblank : ∀ {run : Text}, IsRun run → ¬ word <:+: run := by
        intro run hrun hinfix
        have hnil := (hword.infix_run_append_iff hne hrun []).1 (by rwa [List.append_nil])
        exact hne (List.infix_nil.1 hnil)
      rw [respaceFrom_run _ before hrun]
      exact iff_of_false (hblank (isRun_fill (writesBlanks_closing closes) before [] hrun))
        (hblank hrun)
    | glyph run g rest hrun hg ih =>
      intro before
      have hfilled := isRun_fill (writesBlanks_closing closes) before (g :: rest) hrun
      rw [respaceFrom_ink _ before hrun hg, hword.infix_run_append_iff hne hfilled,
        hword.infix_run_append_iff hne hrun, List.infix_cons_iff, List.infix_cons_iff, ih,
        hword.prefix_cons_iff hcloses hg]
  exact key []

/-! ## Words before a gap -/

/-- Two texts that the same firm words stand at the end of; both are given nearest glyph first. -/
def EndAlike (R : Glyph → Glyph → Prop) (before before' : Text) : Prop :=
  ∀ word, Firm (fun a b => R b a) word → (word <+: before ↔ word <+: before')

/-- The firm words that end with a glyph are the same when the gap before it is closed. -/
theorem EndAlike.step {before before' run : Text} (h : EndAlike R before before')
    (hcloses : ClosesApart R closes) (hbefore : ∀ a ∈ before.head?, a.isBlank = false)
    (hrun : IsRun run) {g : Glyph} (hg : g.isBlank = false) (rest : Text) :
    EndAlike R (g :: (run.reverse ++ before))
      (g :: ((fill (closing closes) before run (g :: rest)).reverse ++ before')) := by
  intro word hword
  cases word with
  | nil => simp
  | cons c word =>
    rw [List.cons_prefix_cons, List.cons_prefix_cons]
    apply and_congr_right
    rintro rfl
    by_cases hne : run = []
    · subst hne
      exact h word hword.tail
    · have hrun' : IsRun run.reverse := fun b hb => hrun b (List.mem_reverse.1 hb)
      have hne' : run.reverse ≠ [] := by simpa using hne
      rw [fill_closing, hword.tail.prefix_run_append_iff hrun' hne']
      split_ifs with hclosed
      · cases word with
        | nil => simp
        | cons d word =>
          apply iff_of_false
          · exact List.cons_ne_nil d word
          · intro hprefix
            -- the word would reach from `c` across the closed gap to the glyph before it
            have hd : [d] <+: before :=
              (h [d] (firm_singleton (hword.tail.ink d List.mem_cons_self))).2
                ((List.prefix_append [d] word).trans hprefix)
            obtain ⟨others, rfl⟩ := hd
            have hgap : Gap.Proper ⟨[d] ++ others, run, c :: rest⟩ :=
              ⟨hne, hrun, hbefore, by simpa using hg⟩
            have hrelated : R d c := (List.isChain_cons_cons.1 hword.chain).1
            exact hcloses _ hgap hclosed d rfl c rfl hrelated
      · exact (hword.tail.prefix_run_append_iff hrun' hne' before').symm

/-! ## Two rules in a row -/

/-- A condition on gaps that sees of a text the firm words directly before and directly behind the
gap. -/
def SeesFirm (R : Glyph → Glyph → Prop) (closes : Gap → Bool) : Prop :=
  ∀ ⦃before before' after after' : Text⦄ (run : Text), EndAlike R before before' →
    (∀ word, Firm R word → (word <+: after ↔ word <+: after')) →
      closes ⟨before, run, after⟩ = closes ⟨before', run, after'⟩

theorem seesFirm_before (h : Firm R word) :
    SeesFirm R fun gap => word.reverse.isPrefixOf gap.before := by
  intro before before' after after' run hbefore _
  rw [Bool.eq_iff_iff, List.isPrefixOf_iff_prefix, List.isPrefixOf_iff_prefix]
  exact hbefore word.reverse h.reverse

theorem seesFirm_after (h : Firm R word) : SeesFirm R fun gap => word.isPrefixOf gap.after := by
  intro before before' after after' run _ hafter
  rw [Bool.eq_iff_iff, List.isPrefixOf_iff_prefix, List.isPrefixOf_iff_prefix]
  exact hafter word h

theorem SeesFirm.or (h : SeesFirm R closes) (h' : SeesFirm R closes') :
    SeesFirm R fun gap => closes gap || closes' gap := by
  intro before before' after after' run hbefore hafter
  show (closes _ || closes' _) = (closes _ || closes' _)
  rw [h run hbefore hafter, h' run hbefore hafter]

theorem SeesFirm.and (h : SeesFirm R closes) (h' : SeesFirm R closes') :
    SeesFirm R fun gap => closes gap && closes' gap := by
  intro before before' after after' run hbefore hafter
  show (closes _ && closes' _) = (closes _ && closes' _)
  rw [h run hbefore hafter, h' run hbefore hafter]

/-- Closing the gaps that one condition names and then those that another one names is closing both
at once, if the second condition sees no more of the text than firm words. -/
theorem respaceFrom_closing_closing (hcloses : ClosesApart R closes) (hsees : SeesFirm R closes')
    (text : Text) {before before' : Text} (hbefore : EndAlike R before before')
    (hink : ∀ a ∈ before.head?, a.isBlank = false) :
    respaceFrom (closing closes') before' [] (respaceFrom (closing closes) before [] text) =
      respaceFrom (closing fun gap => closes gap || closes' gap) before [] text := by
  have hfill : ∀ {before before' after after' : Text} (run : Text),
      closes' ⟨before', run, after'⟩ = closes' ⟨before, run, after⟩ →
        fill (closing closes') before' (fill (closing closes) before run after) after' =
          fill (closing fun gap => closes gap || closes' gap) before run after := by
    intro before before' after after' run hsame
    simp only [fill_closing]
    cases closes ⟨before, run, after⟩ with
    | true => exact ite_self _
    | false => simp [hsame]
  induction text using gap_induction generalizing before before' with
  | run run hrun =>
    have hfilled := isRun_fill (writesBlanks_closing closes) before [] hrun
    rw [respaceFrom_run _ before hrun, respaceFrom_run _ before' hfilled,
      respaceFrom_run _ before hrun]
    exact hfill run (hsees run hbefore fun _ _ => Iff.rfl).symm
  | glyph run g rest hrun hg ih =>
    have hfilled := isRun_fill (writesBlanks_closing closes) before (g :: rest) hrun
    have hstep := hbefore.step hcloses hink hrun hg rest
    -- the second condition sees the same words behind the gap as in the text itself
    have hafter : ∀ word, Firm R word → (word <+: g :: rest ↔
        word <+: g :: respaceFrom (closing closes) (g :: (run.reverse ++ before)) [] rest) :=
      fun word hword => (hword.prefix_cons_iff hcloses hg (run.reverse ++ before) rest).symm
    have hsame := hsees run hbefore hafter
    rw [respaceFrom_ink _ before hrun hg, respaceFrom_ink _ before' hfilled hg,
      respaceFrom_ink _ before hrun hg, hfill run hsame.symm, ih hstep (by simpa using hg)]

theorem respace_closing_closing (hcloses : ClosesApart R closes) (hsees : SeesFirm R closes')
    (text : Text) :
    respace (closing closes') (respace (closing closes) text) =
      respace (closing fun gap => closes gap || closes' gap) text :=
  respaceFrom_closing_closing hcloses hsees text (fun _ _ => Iff.rfl) (by simp)

/-- Stripping closes the gaps at the ends of the text as well. -/
theorem strip_respace_closing (closes : Gap → Bool) (text : Text) :
    strip (respace (closing closes) text) =
      respace (closing fun gap => closes gap || gap.atEdge) text := by
  rw [strip_eq_respace, respace_respace (writesBlanks_closing closes) isLocal_stripRule]
  refine respace_congr (fun gap hgap => ?_) text
  rw [thenRule, closing, closing]
  cases closes gap with
  | true => rfl
  | false => exact fill_of_ne_nil stripRule gap.before gap.after hgap.run_ne_nil

theorem strip_strip (text : Text) : strip (strip text) = strip text := by
  have hstrip := strip_respace_closing Gap.atEdge text
  simp only [Bool.or_self] at hstrip
  exact hstrip

end Text

end Minifier
