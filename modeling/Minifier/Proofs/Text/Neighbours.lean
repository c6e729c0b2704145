import Mathlib.Data.List.Chain
import Minifier.Proofs.Text.Respacing

/-!
# Neighbours in a text

A pair of glyphs occurs in a text when the two stand next to each other there; that no such pair
occurs is a statement about all neighbours (`not_pair_infix_iff`). Deleting gaps makes new
neighbours. `isChain_respace` says what a rule has to keep so that none of them is a forbidden pair,
and `isChain_ink` compares a text with its ink, in which all gaps are gone.
-/

set_option autoImplicit false

namespace Minifier

namespace Text

variable {R : Glyph → Glyph → Prop} {text : Text}

/-- Two glyphs stand next to each other nowhere in a text iff no two neighbours are these glyphs. -/
theorem not_pair_infix_iff {a b : Glyph} :
    ¬ [a, b] <:+: text ↔ text.IsChain fun x y => ¬ (x = a ∧ y = b) := by
  constructor
  · intro h
    refine (List.isChain_isInfix text).imp ?_
    rintro x y hxy ⟨rfl, rfl⟩
    exact h hxy
  · -- the neighbours in a part of a text are neighbours in the text
    intro h hpair
    have hallowed := List.IsChain.infix h hpair
    exact List.isChain_pair.1 hallowed ⟨rfl, rfl⟩

/-- Two conditions on neighbours hold together iff each of them does. -/
theorem isChain_and_iff {S : Glyph → Glyph → Prop} :
    (text.IsChain fun a b => R a b ∧ S a b) ↔ text.IsChain R ∧ text.IsChain S := by
  constructor
  · exact fun h => ⟨h.imp fun _ _ hab => hab.1, h.imp fun _ _ hab => hab.2⟩
  · rintro ⟨hR, hS⟩
    induction hR with
    | nil => exact List.IsChain.nil
    | singleton a => exact List.IsChain.singleton a
    | cons_cons hab _ ih =>
      rw [List.isChain_cons_cons] at hS ⊢
      exact ⟨⟨hab, hS.1⟩, ih hS.2⟩

/-- Every glyph that satisfies `p` has ink or the end of the text behind it. -/
def InkBehind (p : Glyph → Prop) (text : Text) : Prop :=
  text.IsChain fun a b => p a → b.isBlank = false

/-! ## Respacing -/

/-- The neighbours in a filled gap, when the run may be empty. -/
theorem isChain_fill {rule : Gap → Text}
    (hgap : ∀ gap : Gap, gap.Proper →
      (gap.before.head?.toList ++ rule gap ++ gap.after.head?.toList).IsChain R)
    {before run : Text} (after : Text) (hrun : IsRun run)
    (hbefore : ∀ a ∈ before.head?, a.isBlank = false)
    (hafter : ∀ b ∈ after.head?, b.isBlank = false)
    (h : run = [] → ∀ a ∈ before.head?, ∀ b ∈ after.head?, R a b) :
    (before.head?.toList ++ fill rule before run after ++ after.head?.toList).IsChain R := by
  cases run with
  | cons g run => exact hgap ⟨before, g :: run, after⟩ ⟨by simp, hrun, hbefore, hafter⟩
  | nil =>
    rw [fill_nil, List.append_nil]
    cases hx : before.head? with
    | none => cases after.head? <;> simp
    | some a =>
      cases hy : after.head? with
      | none => simp
      | some b => simpa using h rfl a hx b hy

/-- Respacing brings no forbidden pair about if the neighbours in the text are allowed, and all
those that the rule makes of a gap. -/
theorem isChain_respace {rule : Gap → Text}
    (hgap : ∀ gap : Gap, gap.Proper →
      (gap.before.head?.toList ++ rule gap ++ gap.after.head?.toList).IsChain R)
    (h : text.IsChain fun a b => a.isBlank = false → b.isBlank = false → R a b) :
    (respace rule text).IsChain R := by
  -- The last glyph before the text is a neighbour of what the first gap becomes.
  have key : ∀ before : Text, (∀ a ∈ before.head?, a.isBlank = false) →
      (before.head?.toList ++ text).IsChain (fun a b => a.isBlank = false → b.isBlank = false →
        R a b) → (before.head?.toList ++ respaceFrom rule before [] text).IsChain R := by
    clear h
    induction text using gap_induction with
    | run run hrun =>
      intro before hbefore _
      have hfill := isChain_fill hgap [] hrun hbefore (by simp) (by simp)
      simpa [respaceFrom_run rule before hrun] using hfill
    | glyph run g rest hrun hg ih =>
      intro before hbefore h
      -- the glyph `g` ends the part up to here and opens the part behind it
      rw [← List.append_assoc, List.isChain_split] at h
      have hfill := isChain_fill hgap (g :: rest) hrun hbefore (by simpa using hg) <| by
        rintro rfl a ha b hb
        obtain rfl : g = b := by simpa using hb
        rw [Option.mem_def] at ha
        rw [ha] at h
        have hag := h.1
        simp only [Option.toList_some, List.append_nil, List.cons_append, List.nil_append,
          List.isChain_pair] at hag
        exact hag (hbefore a ha) hg
      have hbehind := ih (g :: (run.reverse ++ before)) (by simpa using hg) (by simpa using h.2)
      rw [respaceFrom_ink rule before hrun hg, ← List.append_assoc, List.isChain_split]
      exact ⟨by simpa using hfill, by simpa using hbehind⟩
  exact key [] (by simp) (by simpa using h)

/-- A rule that writes single spaces keeps forbidden pairs away if the gaps between their glyphs
do not vanish. -/
theorem isChain_respace_spaceUnless {vanishes : Gap → Bool}
    (hspace : ∀ a, R a (.char ' ') ∧ R (.char ' ') a)
    (hvanishes : ∀ gap : Gap, gap.Proper → vanishes gap = true →
      ∀ a ∈ gap.before.head?, ∀ b ∈ gap.after.head?, R a b) (h : text.IsChain R) :
    (respace (spaceUnless vanishes) text).IsChain R := by
  refine isChain_respace (fun gap hgap => ?_) (h.imp fun a b hab _ _ => hab)
  rw [spaceUnless]
  cases hx : gap.before.head? with
  | none => cases gap.after.head? <;> split <;> simp [hspace]
  | some a =>
    cases hy : gap.after.head? with
    | none => split <;> simp [hspace]
    | some b =>
      split
      · next hv => simpa using hvanishes gap hgap hv a hx b hy
      · simp [hspace]

/-- Where the gaps behind certain glyphs vanish, these glyphs have ink behind them. -/
theorem inkBehind_respace_spaceUnless {vanishes : Gap → Bool} {p : Glyph → Prop}
    (h : ∀ gap : Gap, gap.Proper → (∃ a ∈ gap.before.head?, p a) → vanishes gap = true)
    (text : Text) : InkBehind p (respace (spaceUnless vanishes) text) := by
  refine isChain_respace (fun gap hgap => ?_)
    ((List.isChain_isInfix text).imp fun a b _ _ hb _ => hb)
  have hafter := hgap.after_ink
  rw [spaceUnless]
  -- only the glyphs next to the gap and the space between them have to be looked at
  cases hx : gap.before.head? with
  | none => cases hy : gap.after.head? <;> split <;> simp_all
  | some a =>
    by_cases ha : p a
    · rw [if_pos (h gap hgap ⟨a, hx, ha⟩)]
      cases hy : gap.after.head? <;> simp_all
    · cases hy : gap.after.head? <;> split <;> simp_all

/-- Blanks at the front of a text have no part in a condition on neighbours that are ink. -/
theorem isChain_run_append {run rest : Text} (hrun : IsRun run)
    (hrest : rest.IsChain fun a b => a.isBlank = false → b.isBlank = false → R a b) :
    (run ++ rest).IsChain fun a b => a.isBlank = false → b.isBlank = false → R a b := by
  induction run with
  | nil => exact hrest
  | cons b run ih =>
    obtain ⟨hb, hbehind⟩ := isRun_cons.1 hrun
    rw [List.cons_append, List.isChain_cons]
    refine ⟨?_, ih hbehind⟩
    intro _ _ hink
    simp [hb] at hink

/-- A run of blanks meets every condition on neighbours that are ink. -/
theorem isChain_run {run : Text} (hrun : IsRun run) :
    run.IsChain fun a b => a.isBlank = false → b.isBlank = false → R a b := by
  rw [← List.append_nil run]
  exact isChain_run_append hrun List.IsChain.nil

/-- Glyphs of ink that stand next to each other still do so when the text is respaced. -/
theorem isChain_of_respace {rule : Gap → Text} (h : (respace rule text).IsChain R) :
    text.IsChain fun a b => a.isBlank = false → b.isBlank = false → R a b := by
  have key : ∀ (text before : Text) (a : Glyph),
      (a :: respaceFrom rule before [] text).IsChain R →
        (a :: text).IsChain fun a b => a.isBlank = false → b.isBlank = false → R a b := by
    intro text
    induction text using gap_induction with
    | run run hrun =>
      intro before a _
      rw [List.isChain_cons]
      constructor
      · intro b hb _ hink
        simp [hrun b (List.mem_of_head? hb)] at hink
      · exact isChain_run hrun
    | glyph run g rest hrun hg ih =>
      intro before a h
      rw [respaceFrom_ink rule _ hrun hg] at h
      have hbehind : (g :: rest).IsChain fun a b => a.isBlank = false → b.isBlank = false → R a b :=
        ih _ g (h.suffix ⟨a :: fill rule before run (g :: rest), rfl⟩)
      rw [List.isChain_cons]
      refine ⟨?_, isChain_run_append hrun hbehind⟩
      -- only where no gap stands between them are `a` and `g` neighbours
      intro b hb _ hink
      cases run with
      | nil =>
        obtain rfl : g = b := by simpa using hb
        rw [fill_nil, List.nil_append, List.isChain_cons_cons] at h
        exact h.1
      | cons c run =>
        obtain rfl : c = b := by simpa using hb
        simp [(isRun_cons.1 hrun).1] at hink
  rw [respace] at h
  induction text using gap_induction with
  | run run hrun => exact isChain_run hrun
  | glyph run g rest hrun hg _ =>
    rw [respaceFrom_ink rule [] hrun hg] at h
    apply isChain_run_append hrun
    exact key rest _ g (h.suffix ⟨fill rule [] run (g :: rest), rfl⟩)

/-! ## Ink -/

/-- Where all forbidden pairs start with glyphs that have ink behind them, a text without
forbidden pairs has none in its ink. -/
theorem isChain_ink {p : Glyph → Prop} (hR : ∀ a b, ¬ p a → R a b) (h : text.IsChain R)
    (hp : InkBehind p text) : (ink text).IsChain R := by
  induction text with
  | nil => exact List.IsChain.nil
  | cons a rest ih =>
    rw [List.isChain_cons] at h
    rw [InkBehind, List.isChain_cons] at hp
    have hrest := ih h.2 hp.2
    cases ha : a.isBlank with
    | true => rwa [ink_cons_of_blank ha]
    | false =>
      rw [ink_cons_of_ink ha, List.isChain_cons]
      refine ⟨?_, hrest⟩
      intro b hb
      by_cases hpa : p a
      · -- the glyph behind `a` is ink, so it is the next glyph of the ink
        cases rest with
        | nil => simp [ink] at hb
        | cons c rest =>
          have hc : c.isBlank = false := hp.1 c rfl hpa
          rw [ink_cons_of_ink hc, List.head?_cons, Option.mem_some_iff] at hb
          exact hb ▸ h.1 c rfl
      · exact hR a b hpa

/-- A forbidden pair of ink stands next to each other in the ink already. -/
theorem isChain_of_ink (hR : ∀ a b, a.isBlank = true ∨ b.isBlank = true → R a b)
    (h : (ink text).IsChain R) : text.IsChain R := by
  induction text with
  | nil => exact List.IsChain.nil
  | cons a rest ih =>
    rw [List.isChain_cons]
    cases ha : a.isBlank with
    | true =>
      rw [ink_cons_of_blank ha] at h
      exact ⟨fun b _ => hR a b (Or.inl ha), ih h⟩
    | false =>
      rw [ink_cons_of_ink ha, List.isChain_cons] at h
      refine ⟨?_, ih h.2⟩
      intro b hb
      cases hblank : b.isBlank with
      | true => exact hR a b (Or.inr hblank)
      | false =>
        cases rest with
        | nil => simp at hb
        | cons c rest =>
          obtain rfl : c = b := by simpa using hb
          exact h.1 c (by rw [ink_cons_of_ink hblank]; rfl)

end Text

end Minifier
