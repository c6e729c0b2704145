import Minifier.Proofs.Text.Neighbours

/-!
# Laws of compaction

Compaction deletes the gaps that touch a mark. Where no mark is itself a blank, it keeps all others
as they are (`compactRule_of_proper`), so compaction around the marks of one string and then around
those of another is compaction around the marks of both (`compact_compact`). It deletes blanks and
nothing else (`compact_sublist`, `ink_compact`), and no mark has a blank next to it afterwards
(`isChain_compact`).
-/

set_option autoImplicit false

namespace Minifier

namespace Text

variable {marks marks' : Glyph → Bool}

/-- No mark is a blank. -/
def Inked (marks : Glyph → Bool) : Prop :=
  ∀ g, marks g = true → g.isBlank = false

/-- The characters of a string are no blanks. -/
theorem inked_oneOf {marks : String} (h : ∀ m ∈ marks.toList, (Glyph.char m).isBlank = false) :
    Inked (oneOf marks) := by
  intro g hg
  rw [oneOf, List.contains_iff_mem, ofString, List.mem_map] at hg
  obtain ⟨m, hm, rfl⟩ := hg
  exact h m hm

theorem oneOf_append (marks marks' : String) :
    oneOf (marks ++ marks') = fun g => oneOf marks g || oneOf marks' g := by
  funext g
  simp only [oneOf, ofString, String.toList_append, List.map_append]
  rw [Bool.eq_iff_iff, Bool.or_eq_true, List.contains_iff_mem, List.contains_iff_mem,
    List.contains_iff_mem, List.mem_append]

theorem Inked.or (h : Inked marks) (h' : Inked marks') : Inked fun g => marks g || marks' g := by
  intro g hg
  rcases Bool.or_eq_true_iff.1 hg with hg | hg
  · exact h g hg
  · exact h' g hg

/-- Among blanks there is no mark. -/
theorem remainder_of_inked (h : Inked marks) {run : Text} (hrun : IsRun run) :
    remainder marks run = run := by
  have hnone : run.reverse.find? marks = none := by
    rw [List.find?_eq_none]
    intro g hg hmark
    have hblank := hrun g (List.mem_reverse.1 hg)
    rw [h g hmark] at hblank
    cases hblank
  rw [remainder, hnone]

/-- A gap between inked marks is deleted or kept as a whole. -/
theorem compactRule_of_proper (h : Inked marks) {gap : Gap} (hgap : gap.Proper) :
    compactRule marks gap = if gap.touches marks then [] else gap.run := by
  rw [compactRule, remainder_of_inked h hgap.isRun]

/-! ## Compaction around marks of two kinds -/

/-- Compaction around marks of one kind and then around those of another is compaction around the
marks of both kinds. -/
theorem compact_compact (h : Inked marks) (h' : Inked marks') (text : Text) :
    compact marks' (compact marks text) = compact (fun g => marks g || marks' g) text := by
  rw [compact_eq_respace, compact_eq_respace, compact_eq_respace,
    respace_respace (writesBlanks_compactRule marks) (isLocal_compactRule marks')]
  refine respace_congr (fun gap hgap => ?_) text
  rw [thenRule, compactRule_of_proper h hgap, compactRule_of_proper (h.or h') hgap,
    ← Gap.touches_or]
  cases gap.touches marks with
  | true => rfl
  | false =>
    -- the second compaction finds the whole gap
    rw [if_neg Bool.false_ne_true, fill_of_ne_nil _ _ _ hgap.run_ne_nil, Bool.false_or]
    exact compactRule_of_proper h' hgap

theorem compact_idem (h : Inked marks) (text : Text) :
    compact marks (compact marks text) = compact marks text := by
  rw [compact_compact h h]
  simp only [Bool.or_self]

theorem compact_comm (h : Inked marks) (h' : Inked marks') (text : Text) :
    compact marks' (compact marks text) = compact marks (compact marks' text) := by
  rw [compact_compact h h', compact_compact h' h]
  simp only [Bool.or_comm]

/-! ## What is deleted -/

theorem ink_compact (marks : Glyph → Bool) (text : Text) : ink (compact marks text) = ink text :=
  ink_respace (writesBlanks_compactRule marks) text

theorem remainder_sublist (marks : Glyph → Bool) (run : Text) :
    (remainder marks run).Sublist run := by
  rw [remainder]
  split
  · next mark hmark =>
    exact List.singleton_sublist.2 (List.mem_reverse.1 (List.mem_of_find?_eq_some hmark))
  · exact List.Sublist.refl run

theorem compactRule_sublist (marks : Glyph → Bool) (gap : Gap) :
    (compactRule marks gap).Sublist gap.run := by
  rw [compactRule]
  split
  · exact List.nil_sublist gap.run
  · exact remainder_sublist marks gap.run

/-- A rule that only deletes makes a respacing that only deletes. -/
theorem respaceFrom_sublist {rule : Gap → Text} (hrule : ∀ gap, (rule gap).Sublist gap.run)
    (text before : Text) : (respaceFrom rule before [] text).Sublist text := by
  have hfill : ∀ before run after : Text, (fill rule before run after).Sublist run := by
    intro before run after
    cases run with
    | nil => exact List.Sublist.refl []
    | cons g run => exact hrule ⟨before, g :: run, after⟩
  induction text using gap_induction generalizing before with
  | run run hrun =>
    rw [respaceFrom_run rule before hrun]
    exact hfill before run []
  | glyph run g rest hrun hg ih =>
    rw [respaceFrom_ink rule before hrun hg]
    exact (hfill before run (g :: rest)).append ((ih _).cons_cons g)

theorem compact_sublist (marks : Glyph → Bool) (text : Text) : (compact marks text).Sublist text :=
  respaceFrom_sublist (compactRule_sublist marks) text []

/-! ## What is left next to a mark -/

/-- What is on the sides of a gap is ink. -/
theorem isBlank_of_mem_sides {gap : Gap} (hgap : gap.Proper) {g : Glyph}
    (hg : g ∈ gap.before.head?.toList ++ gap.after.head?.toList) : g.isBlank = false := by
  rcases List.mem_append.1 hg with hg | hg
  · exact hgap.before_ink g (Option.mem_toList.1 hg)
  · exact hgap.after_ink g (Option.mem_toList.1 hg)

/-- Neither the sides of a gap that touches no mark nor the blanks between them are marks. -/
theorem not_mark_of_mem_gap (h : Inked marks) {gap : Gap} (hgap : gap.Proper)
    (htouches : gap.touches marks = false) {g : Glyph}
    (hg : g ∈ gap.before.head?.toList ++ gap.run ++ gap.after.head?.toList) :
    marks g = false := by
  rw [Bool.eq_false_iff]
  intro hmark
  rcases List.mem_append.1 hg with hg | hg
  · rcases List.mem_append.1 hg with hg | hg
    · rw [Gap.touches_of_before (Option.mem_toList.1 hg) hmark] at htouches
      cases htouches
    · have hblank := hgap.isRun g hg
      rw [h g hmark] at hblank
      cases hblank
  · rw [Gap.touches_of_after (Option.mem_toList.1 hg) hmark] at htouches
    cases htouches

/-- Afterwards a mark has no blank next to it. -/
theorem isChain_compact (h : Inked marks) (text : Text) :
    (compact marks text).IsChain fun a b =>
      (marks a = true → b.isBlank = false) ∧ (marks b = true → a.isBlank = false) := by
  rw [compact_eq_respace]
  refine isChain_respace (fun gap hgap => ?_) ?_
  · apply List.Pairwise.isChain
    rw [List.pairwise_iff_forall_sublist]
    intro a b hsub
    have ha := hsub.subset List.mem_cons_self
    have hb := hsub.subset (List.mem_cons_of_mem a List.mem_cons_self)
    rw [compactRule_of_proper h hgap] at ha hb
    cases htouches : gap.touches marks with
    | true =>
      rw [htouches, if_pos rfl, List.append_nil] at ha hb
      exact ⟨fun _ => isBlank_of_mem_sides hgap hb, fun _ => isBlank_of_mem_sides hgap ha⟩
    | false =>
      rw [htouches, if_neg Bool.false_ne_true] at ha hb
      rw [not_mark_of_mem_gap h hgap htouches ha, not_mark_of_mem_gap h hgap htouches hb]
      exact ⟨Bool.noConfusion, Bool.noConfusion⟩
  · exact (List.isChain_isInfix text).imp fun a b _ ha hb => ⟨fun _ => hb, fun _ => ha⟩

end Text

end Minifier
