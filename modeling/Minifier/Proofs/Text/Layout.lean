import Minifier.Proofs.Text.Neighbours

/-!
# Texts laid out

Two descriptions of a text that say at once, without passes over it, what becomes of every glyph.

`Text.spread` takes a text apart into the glyphs that are kept, each with what stands between it and
the next one, and `Text.laidOut` writes such glyphs in a row, with a separator of one's choice
between neighbours. Every respacing by a local rule that deletes the gaps at the ends of a text is
such a row (`respace_eq_laidOut`), with `spaceBetween` as the separator of the rules that write
single spaces next to no mark.

`Text.inkRuns` lists the maximal runs of ink of a text; collapsing writes them with single spaces in
between (`collapse_eq_intercalate`), and keeps every two glyphs of ink together that stood next to
each other (`pair_infix_collapse_iff`).
-/

set_option autoImplicit false

namespace Minifier

namespace Text

/-! ## Glyphs in a row -/

/-- What stands before the first glyph that is kept, and the glyphs that are kept, each with what
stands between it and the next one. Whether a glyph is kept is decided by the glyph and by what
follows it. -/
def spread (keeps : Glyph → Text → Bool) : Text → Text × List (Glyph × Text)
  | [] => ([], [])
  | g :: rest =>
    if keeps g rest then ([], (g, (spread keeps rest).1) :: (spread keeps rest).2)
    else (g :: (spread keeps rest).1, (spread keeps rest).2)

/-- The ink of a text is kept, whatever follows it. -/
def keepsInk (g : Glyph) (_ : Text) : Bool :=
  !g.isBlank

/-- Glyphs written in a row. Between two neighbours stands what `separator` makes of them and of
what stood between them; nothing stands before the first glyph or behind the last one. -/
def laidOut (separator : Glyph → Text → Glyph → Text) : List (Glyph × Text) → Text
  | [] => []
  | [(a, _)] => [a]
  | (a, gap) :: (b, gap') :: others =>
    a :: (separator a gap b ++ laidOut separator ((b, gap') :: others))

/-- One space where a blank stood between two glyphs that are no marks, and nothing elsewhere. -/
def spaceBetween (marks : String) (a : Glyph) (gap : Text) (b : Glyph) : Text :=
  if gap.any Glyph.isBlank && !oneOf marks a && !oneOf marks b then [.char ' '] else []

variable {keeps : Glyph → Text → Bool} {separator : Glyph → Text → Glyph → Text}

theorem spread_cons_of_keeps {g : Glyph} {rest : Text} (h : keeps g rest = true) :
    spread keeps (g :: rest) = ([], (g, (spread keeps rest).1) :: (spread keeps rest).2) := by
  rw [spread, if_pos h]

theorem spread_cons_of_not_keeps {g : Glyph} {rest : Text} (h : keeps g rest = false) :
    spread keeps (g :: rest) = (g :: (spread keeps rest).1, (spread keeps rest).2) := by
  rw [spread, if_neg (by simp [h])]

/-- Nothing of a text is lost when it is taken apart. -/
theorem spread_append_flatMap (keeps : Glyph → Text → Bool) (text : Text) :
    (spread keeps text).1 ++ (spread keeps text).2.flatMap (fun piece => piece.1 :: piece.2) =
      text := by
  induction text with
  | nil => rfl
  | cons g rest ih =>
    cases h : keeps g rest with
    | true => simp [spread_cons_of_keeps h, ih]
    | false => simp [spread_cons_of_not_keeps h, ih]

/-- A run of blanks is what stands before the ink behind it. -/
theorem spread_run_append {run : Text} (h : IsRun run) (rest : Text) :
    spread keepsInk (run ++ rest) =
      (run ++ (spread keepsInk rest).1, (spread keepsInk rest).2) := by
  induction run with
  | nil => rfl
  | cons g run ih =>
    obtain ⟨hg, hrun⟩ := isRun_cons.1 h
    have hkeeps : keepsInk g (run ++ rest) = false := by simp [keepsInk, hg]
    rw [List.cons_append, spread_cons_of_not_keeps hkeeps, ih hrun]
    rfl

theorem spread_run {run : Text} (h : IsRun run) : spread keepsInk run = (run, []) := by
  have hread := spread_run_append h []
  rwa [List.append_nil, spread, List.append_nil] at hread

theorem spread_ink {run : Text} (h : IsRun run) {g : Glyph} (hg : g.isBlank = false)
    (rest : Text) :
    spread keepsInk (run ++ g :: rest) =
      (run, (g, (spread keepsInk rest).1) :: (spread keepsInk rest).2) := by
  have hkeeps : keepsInk g rest = true := by simp [keepsInk, hg]
  rw [spread_run_append h, spread_cons_of_keeps hkeeps, List.append_nil]

theorem laidOut_cons_cons (a b : Glyph) (gap gap' : Text) (others : List (Glyph × Text)) :
    laidOut separator ((a, gap) :: (b, gap') :: others) =
      a :: (separator a gap b ++ laidOut separator ((b, gap') :: others)) :=
  rfl

/-- Changing what stands between the glyphs is changing the separator. -/
theorem laidOut_map (change : Text → Text) (pieces : List (Glyph × Text)) :
    laidOut separator (pieces.map fun piece => (piece.1, change piece.2)) =
      laidOut (fun a gap b => separator a (change gap) b) pieces := by
  induction pieces with
  | nil => rfl
  | cons piece others ih =>
    rcases piece with ⟨a, gap⟩
    cases others with
    | nil => rfl
    | cons next others =>
      rcases next with ⟨b, gap'⟩
      simp only [List.map_cons] at ih ⊢
      rw [laidOut_cons_cons, laidOut_cons_cons, ih]

/-! ## Respacing as a row of glyphs -/

theorem filter_isBlank_of_isRun {run : Text} (h : IsRun run) : run.filter Glyph.isBlank = run :=
  List.filter_eq_self.2 h

/-- A respacing by a local rule that deletes the gaps at the ends of a text writes the ink in a
row, and between two glyphs of it what the rule makes of the blanks that stand there. -/
theorem respace_eq_laidOut {rule : Gap → Text} (hlocal : Gap.IsLocal rule)
    (hedge : ∀ gap : Gap, gap.atEdge = true → rule gap = []) (text : Text) :
    respace rule text =
      laidOut (fun a gap b => fill rule [a] (gap.filter Glyph.isBlank) [b])
        (spread keepsInk text).2 := by
  -- behind a glyph of ink the row goes on with the gap behind that glyph
  have key : ∀ (text before : Text) (a : Glyph),
      a :: respaceFrom rule (a :: before) [] text =
        laidOut (fun a gap b => fill rule [a] (gap.filter Glyph.isBlank) [b])
          ((a, (spread keepsInk text).1) :: (spread keepsInk text).2) := by
    intro text
    induction text using gap_induction with
    | run run hrun =>
      intro before a
      rw [respaceFrom_run rule _ hrun, fill_eq_nil_of_edge hedge (.inr rfl), spread_run hrun]
      rfl
    | glyph run g rest hrun hg ih =>
      intro before a
      have hgap : fill rule (a :: before) run (g :: rest) = fill rule [a] run [g] := by
        apply fill_congr_of_isLocal hlocal
        · rfl
        · rfl
      rw [respaceFrom_ink rule _ hrun hg, spread_ink hrun hg, laidOut_cons_cons,
        filter_isBlank_of_isRun hrun, ← ih, hgap]
  rw [respace]
  induction text using gap_induction with
  | run run hrun =>
    rw [respaceFrom_run rule [] hrun, fill_eq_nil_of_edge hedge (.inl rfl), spread_run hrun]
    rfl
  | glyph run g rest hrun hg _ =>
    rw [respaceFrom_ink rule [] hrun hg, fill_eq_nil_of_edge hedge (.inl rfl), spread_ink hrun hg,
      ← key]
    rfl

/-- A rule that writes single spaces writes one between two glyphs if there is a gap that stays. -/
theorem respace_spaceUnless_eq_laidOut {vanishes : Gap → Bool} (hlocal : Gap.IsLocal vanishes)
    (hedge : ∀ gap : Gap, gap.atEdge = true → vanishes gap = true) (text : Text) :
    respace (spaceUnless vanishes) text =
      laidOut (fun a gap b =>
          if gap.any Glyph.isBlank && !vanishes ⟨[a], gap.filter Glyph.isBlank, [b]⟩ then
            [.char ' ']
          else [])
        (spread keepsInk text).2 := by
  have hends : ∀ gap : Gap, gap.atEdge = true → spaceUnless vanishes gap = [] := by
    intro gap hgap
    rw [spaceUnless, if_pos (hedge gap hgap)]
  rw [respace_eq_laidOut (isLocal_spaceUnless hlocal) hends]
  congr 1
  funext a gap b
  cases hany : gap.any Glyph.isBlank with
  | false =>
    have hnone : gap.filter Glyph.isBlank = [] := by
      simpa [List.filter_eq_nil_iff] using hany
    rw [hnone, fill_nil]
    rfl
  | true =>
    have hsome : gap.filter Glyph.isBlank ≠ [] := by
      simpa [List.filter_eq_nil_iff] using hany
    rw [fill_of_ne_nil _ _ _ hsome, spaceUnless, Bool.true_and]
    cases vanishes ⟨[a], gap.filter Glyph.isBlank, [b]⟩ <;> rfl

/-- Where the gaps vanish that touch marks, the others are single spaces between two glyphs that
are none. -/
theorem respace_touches_eq_laidOut (marks : String) (text : Text) :
    respace (spaceUnless fun gap => gap.atEdge || gap.touches (oneOf marks)) text =
      laidOut (spaceBetween marks) (spread keepsInk text).2 := by
  have hlocal : Gap.IsLocal fun gap => gap.atEdge || gap.touches (oneOf marks) :=
    Gap.isLocal_atEdge.or (Gap.isLocal_touches (oneOf marks))
  rw [respace_spaceUnless_eq_laidOut hlocal fun gap hgap => by rw [hgap, Bool.true_or]]
  congr 1
  funext a gap b
  simp [spaceBetween, Gap.atEdge, Gap.touches, Bool.and_assoc]

/-! ## Runs of ink -/

/-- The maximal runs of glyphs that are no blanks, in their order. -/
def inkRuns (text : Text) : List Text :=
  (text.splitOnP Glyph.isBlank).filter fun run => !run.isEmpty

@[simp]
theorem inkRuns_nil : inkRuns [] = [] := by
  simp [inkRuns]

/-- A blank stands between two runs of ink. -/
theorem inkRuns_append_cons {b : Glyph} (hb : b.isBlank = true) (text text' : Text) :
    inkRuns (text ++ b :: text') = inkRuns text ++ inkRuns text' := by
  rw [inkRuns, List.splitOnP_append_cons text text' hb, List.filter_append]
  rfl

theorem inkRuns_run_append {run : Text} (h : IsRun run) (text : Text) :
    inkRuns (run ++ text) = inkRuns text := by
  induction run with
  | nil => rfl
  | cons g run ih =>
    obtain ⟨hg, hrun⟩ := isRun_cons.1 h
    have hbreak := inkRuns_append_cons hg [] (run ++ text)
    rw [List.nil_append, inkRuns_nil, List.nil_append] at hbreak
    rw [List.cons_append, hbreak, ih hrun]

theorem inkRuns_of_ink {word : Text} (hne : word ≠ []) (h : ∀ g ∈ word, g.isBlank = false) :
    inkRuns word = [word] := by
  rw [inkRuns, List.splitOnP_eq_singleton h]
  simp [hne]

/-- Blanks behind a run of ink end it. -/
theorem inkRuns_append_run {word run : Text} (hne : word ≠ [])
    (h : ∀ g ∈ word, g.isBlank = false) (hrun : IsRun run) (hrun_ne : run ≠ []) (text : Text) :
    inkRuns (word ++ (run ++ text)) = word :: inkRuns text := by
  obtain ⟨b, others, rfl⟩ := List.exists_cons_of_ne_nil hrun_ne
  obtain ⟨hb, hothers⟩ := isRun_cons.1 hrun
  rw [List.cons_append, inkRuns_append_cons hb, inkRuns_of_ink hne h, inkRuns_run_append hothers]
  rfl

theorem inkRuns_ne_nil {g : Glyph} (hg : g.isBlank = false) (text : Text) :
    inkRuns (g :: text) ≠ [] := by
  obtain ⟨first, others, hparts⟩ :=
    List.exists_cons_of_ne_nil (List.splitOnP_ne_nil Glyph.isBlank text)
  simp [inkRuns, List.splitOnP_cons_eq_if_modifyHead, hg, hparts]

theorem inkRuns_append_of_isRun {word run : Text} (hne : word ≠ [])
    (h : ∀ g ∈ word, g.isBlank = false) (hrun : IsRun run) : inkRuns (word ++ run) = [word] := by
  cases run with
  | nil => rw [List.append_nil, inkRuns_of_ink hne h]
  | cons b run =>
    have hruns := inkRuns_append_run hne h hrun (List.cons_ne_nil b run) []
    rwa [List.append_nil, inkRuns_nil] at hruns

/-- With a run of ink behind it, a text is collapsed to the runs of ink that go on from there. -/
theorem append_respaceFrom_eq_intercalate {word before : Text} (hne : word ≠ [])
    (hink : ∀ g ∈ word, g.isBlank = false) (hbefore : before ≠ []) (text : Text) :
    word ++ respaceFrom (spaceUnless Gap.atEdge) before [] text =
      [.char ' '].intercalate (inkRuns (word ++ text)) := by
  -- `word` is the run of ink that is being read, `before` ends with it
  induction text using gap_induction generalizing word before with
  | run run hrun =>
    rw [respaceFrom_run _ before hrun, fill_eq_nil_of_edge spaceUnless_of_atEdge (.inr rfl),
      inkRuns_append_of_isRun hne hink hrun, List.intercalate_singleton, List.append_nil]
  | glyph run g rest hrun hg ih =>
    rw [respaceFrom_ink _ before hrun hg]
    cases run with
    | nil =>
      -- no gap is here, and the word goes on with `g`
      have hlonger : ∀ b ∈ word ++ [g], b.isBlank = false := by
        intro b hb
        rcases List.mem_append.1 hb with hb | hb
        · exact hink b hb
        · rwa [List.mem_singleton.1 hb]
      have h := @ih (word ++ [g]) (g :: ([].reverse ++ before)) (by simp) hlonger (by simp)
      rw [List.append_assoc, List.append_assoc] at h
      exact h
    | cons b run =>
      -- the gap ends the word, and `g` begins the next one
      have hinside : Gap.atEdge ⟨before, b :: run, g :: rest⟩ = false := by
        simp [Gap.atEdge, hbefore]
      have h := @ih [g] (g :: ((b :: run).reverse ++ before)) (by simp) (by simpa using hg)
        (by simp)
      rw [List.singleton_append, List.singleton_append] at h
      obtain ⟨next, others, hruns⟩ := List.exists_cons_of_ne_nil (inkRuns_ne_nil hg rest)
      rw [fill_of_ne_nil _ _ _ (List.cons_ne_nil b run), spaceUnless, hinside,
        if_neg Bool.false_ne_true, inkRuns_append_run hne hink hrun (List.cons_ne_nil b run),
        h, hruns, List.intercalate_cons_cons, List.append_assoc]

/-- Collapsing writes the runs of ink with one space between each two of them. -/
theorem collapse_eq_intercalate (text : Text) :
    collapse text = [.char ' '].intercalate (inkRuns text) := by
  rw [collapse_eq_respace, respace]
  -- what stands before the first glyph of ink goes, and from there on the text is read in words
  induction text using gap_induction with
  | run run hrun =>
    have hruns := inkRuns_run_append hrun []
    rw [List.append_nil] at hruns
    rw [respaceFrom_run _ [] hrun, fill_eq_nil_of_edge spaceUnless_of_atEdge (.inl rfl), hruns]
    rfl
  | glyph run g rest hrun hg _ =>
    have h := append_respaceFrom_eq_intercalate (List.cons_ne_nil g []) (by simpa using hg)
      (List.cons_ne_nil g (run.reverse ++ [])) rest
    rw [respaceFrom_ink _ [] hrun hg, fill_eq_nil_of_edge spaceUnless_of_atEdge (.inl rfl),
      inkRuns_run_append hrun]
    exact h

/-- Collapsing keeps two glyphs of ink together if they stood next to each other, and brings no
other two together. -/
theorem pair_infix_collapse_iff {a b : Glyph} (ha : a.isBlank = false) (hb : b.isBlank = false)
    (text : Text) : [a, b] <:+: collapse text ↔ [a, b] <:+: text := by
  have hspace : ∀ {g : Glyph}, g.isBlank = false → Glyph.char ' ' ≠ g := by
    rintro _ hg rfl
    exact Bool.noConfusion hg
  rw [← not_iff_not, not_pair_infix_iff, not_pair_infix_iff, collapse_eq_respace]
  constructor
  · intro h
    apply (isChain_of_respace h).imp
    rintro x y hxy ⟨rfl, rfl⟩
    exact hxy ha hb ⟨rfl, rfl⟩
  · intro h
    apply isChain_respace_spaceUnless _ _ h
    · intro x
      exact ⟨fun hx => hspace hb hx.2, fun hx => hspace ha hx.1⟩
    · -- a gap between two glyphs is at no end of the text
      intro gap _ hedge x hx y hy
      rw [Gap.atEdge_eq_false hx hy] at hedge
      exact Bool.noConfusion hedge

end Text

end Minifier
