import Mathlib.Data.List.Infix
import Minifier.Language.JavaScript
import Minifier.Pattern
import Minifier.Proofs.Pattern.Scan
import Minifier.Proofs.Text.Respacing

/-!
# Joined lines as patterns

Lines are joined by two deletions: first the blanks at the ends of every line go, and then the line
feeds. What the first of them leaves of a gap depends on where its line feeds stand: blanks at the
start of a line go up to the next glyph, line feeds and all, while blanks at the end of a line go up
to the last line feed of their gap that has a blank before it. Only with the second one is the
outcome simple: a gap goes if it holds a line feed or stands at an end of the text, and else stays
as it is (`line_patterns_join`).
-/

set_option autoImplicit false

namespace Minifier.JavaScript

open Text Pattern

/-! ## The ends of lines -/

/-- The most blanks that a text starts with, one at least, behind which a line ends. -/
def lineTail : Text → Option Text
  | [] => none
  | g :: rest =>
    if g.isBlank then
      ((lineTail rest).map (g :: ·)).or
        (if rest.head?.all (· == .char '\n') then some [g] else none)
    else none

/-- The blanks at an end of a line that a text starts with. -/
def lineEdge (before text : Text) : Option Text :=
  (if startsLine before then GlyphClass.blanks.some? text else none).or (lineTail text)

/-- The pattern of the blanks at the ends of lines. -/
def edgePattern : String :=
  "(?m)^\\s+|\\s+$"

/-- The pattern of the line feeds that are left. -/
def feedPattern : String :=
  "\\n+"

def edgeNode : Node :=
  .alt (.seq (.place .lineStart) (.several .blanks 1 none .greedy))
    (.seq (.several .blanks 1 none .greedy) (.place .lineEnd))

def feedNode : Node :=
  .several (.only 10) 1 none .greedy

variable {before run text rest body kept : Text} {g : Glyph}

theorem lineTail_cons_of_blank (hg : g.isBlank = true) (rest : Text) :
    lineTail (g :: rest) = ((lineTail rest).map (g :: ·)).or
      (if rest.head?.all (· == .char '\n') then some [g] else none) := by
  rw [lineTail, if_pos hg]

theorem lineTail_cons_of_ink (hg : g.isBlank = false) (rest : Text) :
    lineTail (g :: rest) = none := by
  rw [lineTail, if_neg (by simp [hg])]

/-- What is taken at the end of a line are blanks, and the line ends behind them. -/
theorem of_lineTail (h : lineTail text = some body) :
    body ≠ [] ∧ IsRun body ∧
      ∃ rest, text = body ++ rest ∧ rest.head?.all (· == .char '\n') = true := by
  induction text generalizing body with
  | nil => cases h
  | cons g rest ih =>
    cases hg : g.isBlank with
    | false =>
      rw [lineTail_cons_of_ink hg] at h
      cases h
    | true =>
      rw [lineTail_cons_of_blank hg] at h
      rcases Option.or_eq_some_iff.1 h with hlonger | ⟨-, hend⟩
      · obtain ⟨tail, htail, rfl⟩ := Option.map_eq_some_iff.1 hlonger
        obtain ⟨-, hrun, behind, rfl, hend⟩ := ih htail
        exact ⟨List.cons_ne_nil _ _, isRun_cons.2 ⟨hg, hrun⟩, behind, rfl, hend⟩
      · split_ifs at hend with hfeed
        cases hend
        exact ⟨List.cons_ne_nil _ _, isRun_cons.2 ⟨hg, isRun_nil⟩, rest, rfl, hfeed⟩

/-- At the end of the text all blanks are taken. -/
theorem lineTail_run (hrun : IsRun run) (hne : run ≠ []) : lineTail run = some run := by
  induction run with
  | nil => exact absurd rfl hne
  | cons g run ih =>
    obtain ⟨hg, hrest⟩ := isRun_cons.1 hrun
    rw [lineTail_cons_of_blank hg]
    cases run with
    | nil => rfl
    | cons c run =>
      rw [ih hrest (List.cons_ne_nil c run)]
      rfl

/-- Blanks with a line feed behind the first one of them hold the end of a line. -/
theorem lineTail_ne_none (hg : g.isBlank = true) (hrun : IsRun run) (hfeed : .char '\n' ∈ run)
    (rest : Text) : lineTail (g :: (run ++ rest)) ≠ none := by
  induction run generalizing g with
  | nil => cases hfeed
  | cons c run ih =>
    obtain ⟨hc, hrest⟩ := isRun_cons.1 hrun
    rw [lineTail_cons_of_blank hg]
    rcases List.mem_cons.1 hfeed with rfl | hfeed
    · simp
    · simpa using fun htail => absurd htail (ih hc hrest hfeed)

/-- Of blanks before ink so many go that a line feed comes next. -/
theorem exists_of_lineTail_run (hrun : IsRun run) (hg : g.isBlank = false)
    (h : lineTail (run ++ g :: rest) = some body) :
    body ≠ [] ∧ ∃ others, run = body ++ others ∧ .char '\n' ∈ others := by
  obtain ⟨hne, hblanks, behind, hparts, hend⟩ := of_lineTail h
  have hprefix : body <+: run ++ g :: rest := ⟨behind, hparts.symm⟩
  obtain ⟨others, rfl⟩ := hblanks.prefix_of_ink hg hprefix
  rw [List.append_assoc] at hparts
  obtain rfl := List.append_cancel_left hparts
  refine ⟨hne, others, rfl, ?_⟩
  cases others with
  | nil =>
    -- ink is no line feed
    rw [List.nil_append, List.head?_cons, Option.all_some, beq_iff_eq] at hend
    rw [hend] at hg
    cases hg
  | cons c others =>
    rw [List.cons_append, List.head?_cons, Option.all_some, beq_iff_eq] at hend
    rw [hend]
    exact List.mem_cons_self

/-! ## What the nodes take -/

theorem takes_lineTail :
    (Node.seq (.several .blanks 1 none .greedy) (.place .lineEnd)).Takes fun _ => lineTail := by
  constructor
  · intro next s hleft hnext
    show (Node.several .blanks 1 none .greedy).run
      (fun e => (Node.place .lineEnd).run next e) s = _
    generalize hrest : s.rest = rest
    induction rest generalizing s with
    | nil =>
      apply run_greedy_one_of_not
      rw [hrest]
      rfl
    | cons g rest ih =>
      cases hg : g.isBlank with
      | false =>
        rw [lineTail_cons_of_ink hg]
        apply run_greedy_one_of_not
        rw [hrest]
        exact (GlyphClass.contains_blanks g).trans hg
      | true =>
        have hcontains : GlyphClass.blanks.contains g.code = true :=
          (GlyphClass.contains_blanks g).trans hg
        have hlater : ∀ e : Cursor, (s.past g rest).index < e.index → next e = some e :=
          fun e he => hnext e (Nat.lt_of_succ_lt he)
        have hplace : (Node.place .lineEnd).run next (s.past g rest) =
            if rest.head?.all (· == .char '\n') then some (s.past g rest) else none := by
          rw [Node.run_place, hnext (s.past g rest) (Nat.lt_succ_self s.index)]
          rfl
        rw [run_greedy_one hleft hrest hcontains, run_greedy_zero,
          ih (s.past g rest) (Cursor.rest_past_le hleft hrest) hlater rfl, hplace,
          lineTail_cons_of_blank hg]
        -- the longer ways of ending the line are tried first
        cases lineTail rest with
        | some tail => exact congrArg some (Cursor.behind_past g rest tail hrest)
        | none =>
          have hpast : s.past g rest = s.behind [g] := Cursor.behind_past g rest [] hrest
          simp only [Option.map_none, Option.none_or, hpast]
          split_ifs <;> rfl
  · intro before rest body hbody
    obtain ⟨hne, -, behind, rfl, -⟩ := of_lineTail hbody
    exact ⟨hne, List.prefix_append body behind⟩

theorem edgeNode_takes : edgeNode.Takes lineEdge :=
  (takes_several .blanks).lineStart.alt takes_lineTail

/-! ## Gaps without the ends of lines -/

theorem lineEdge_of_ink (hg : g.isBlank = false) (before rest : Text) :
    lineEdge before (g :: rest) = none := by
  have hcontains : GlyphClass.blanks.contains g.code = false :=
    (GlyphClass.contains_blanks g).trans hg
  simp [lineEdge, GlyphClass.some?, hcontains, lineTail_cons_of_ink hg]

/-- Where a line starts, all blanks are taken. -/
theorem lineEdge_of_startsLine (hstart : startsLine before = true) (hrun : IsRun run)
    (hne : run ≠ []) (hrest : ∀ g ∈ rest.head?, g.isBlank = false) :
    lineEdge before (run ++ rest) = some run := by
  have hfirst : GlyphClass.blanks.firstOf (run ++ rest) = run := by
    rw [GlyphClass.firstOf_blanks, List.takeWhile_append_of_pos hrun]
    cases rest with
    | nil => simp
    | cons g rest => simp [hrest g rfl]
  have hhead : (run ++ rest).head?.any (fun g => GlyphClass.blanks.contains g.code) = true := by
    obtain ⟨g, run, rfl⟩ := List.exists_cons_of_ne_nil hne
    exact (GlyphClass.contains_blanks g).trans (isRun_cons.1 hrun).1
  rw [lineEdge, if_pos hstart, GlyphClass.some?, if_pos hhead, hfirst]
  rfl

theorem lineEdge_of_not_startsLine (hstart : startsLine before = false) (text : Text) :
    lineEdge before text = lineTail text := by
  rw [lineEdge, if_neg (by simp [hstart])]
  rfl

/-- At the end of the text nothing stays of a gap. -/
theorem eq_nil_of_scan_run (hrun : IsRun run) (h : Scan lineEdge before run kept) : kept = [] := by
  by_cases hne : run = []
  · rw [hne] at h
    exact edgeNode_takes.scan_nil h
  · have hedge : lineEdge before (run ++ []) = some run := by
      cases hstart : startsLine before with
      | true => exact lineEdge_of_startsLine hstart hrun hne (by simp)
      | false =>
        rw [lineEdge_of_not_startsLine hstart, List.append_nil]
        exact lineTail_run hrun hne
    rw [← List.append_nil run] at h
    exact edgeNode_takes.scan_nil (h.of_some hedge hne)

/-- Of a gap before a glyph of ink line feeds may stay, and all of it stays if it holds none and
does not start a line. -/
theorem exists_of_scan_run (hrun : IsRun run) (hg : g.isBlank = false)
    (h : Scan lineEdge before (run ++ g :: rest) kept) :
    ∃ left kept', kept = left ++ g :: kept' ∧
      Scan lineEdge (g :: (run.reverse ++ before)) rest kept' ∧
      left.filter (· != .char '\n') =
        if startsLine before || run.contains (.char '\n') then [] else run := by
  -- on the length of the gap: each step of the scan takes a glyph or several off its front
  induction hlength : run.length using Nat.strong_induction_on generalizing run before kept with
  | _ n ih =>
    cases run with
    | nil =>
      obtain ⟨kept', rfl, hscan⟩ := h.of_none (lineEdge_of_ink hg before rest)
      exact ⟨[], kept', rfl, hscan, by simp⟩
    | cons c run =>
      have hne : c :: run ≠ [] := List.cons_ne_nil c run
      cases hstart : startsLine before with
      | true =>
        have hink : ∀ a ∈ (g :: rest).head?, a.isBlank = false := by simpa using hg
        have hedge := lineEdge_of_startsLine hstart hrun hne hink
        obtain ⟨kept', rfl, hscan⟩ := (h.of_some hedge hne).of_none (lineEdge_of_ink hg _ rest)
        exact ⟨[], kept', rfl, hscan, rfl⟩
      | false =>
        have hedge := lineEdge_of_not_startsLine hstart (c :: run ++ g :: rest)
        cases htail : lineTail (c :: run ++ g :: rest) with
        | some body =>
          -- the blanks that go leave a line feed behind them
          rw [htail] at hedge
          obtain ⟨hbody, others, hothers, hfeed⟩ := exists_of_lineTail_run hrun hg htail
          rw [hothers] at hrun hlength ⊢
          rw [hothers, List.append_assoc] at h hedge
          have hshorter : others.length < n := by
            have hpos := List.length_pos_iff.2 hbody
            rw [List.length_append] at hlength
            omega
          obtain ⟨left, kept', rfl, hscan, hleft⟩ :=
            ih _ hshorter (isRun_append.1 hrun).2 (h.of_some hedge hbody) rfl
          refine ⟨left, kept', rfl, ?_, ?_⟩
          · rw [List.reverse_append, List.append_assoc]
            exact hscan
          · rw [hleft, if_pos (by simp [hfeed]), if_pos (by simp [hfeed])]
        | none =>
          rw [htail] at hedge
          obtain ⟨kept', rfl, hscan⟩ := h.of_none hedge
          obtain ⟨hc, hrest⟩ := isRun_cons.1 hrun
          have hshorter : run.length < n := by
            rw [← hlength]
            exact Nat.lt_succ_self run.length
          obtain ⟨left, kept', rfl, hscan', hleft⟩ := ih _ hshorter hrest hscan rfl
          refine ⟨c :: left, kept', rfl, ?_, ?_⟩
          · rw [List.reverse_cons, List.append_assoc]
            exact hscan'
          · rw [startsLine_cons] at hleft
            by_cases hfeed : c = .char '\n'
            · simp [hleft, hfeed]
            · have hnone : .char '\n' ∉ run :=
                fun hmem => lineTail_ne_none hc hrest hmem (g :: rest) htail
              simp [hleft, hfeed, hnone, Ne.symm hfeed]

/-- Behind ink no line starts. -/
theorem startsLine_eq_isEmpty (hbefore : ∀ a ∈ before.head?, a.isBlank = false) :
    startsLine before = before.isEmpty := by
  cases before with
  | nil => rfl
  | cons a before =>
    rw [startsLine_cons, decide_eq_false]
    · rfl
    · rintro rfl
      exact Bool.noConfusion (hbefore _ rfl)

/-- What is left without the ends of lines and without line feeds is what joining the lines leaves,
from one glyph of ink to the next. -/
theorem filter_of_scan_lineEdge (hbefore : ∀ a ∈ before.head?, a.isBlank = false)
    (h : Scan lineEdge before text kept) :
    kept.filter (· != .char '\n') =
      respaceFrom (fun gap => if gap.atEdge || gap.run.contains (.char '\n') then [] else gap.run)
        before [] text := by
  induction text using gap_induction generalizing before kept with
  | run run hrun =>
    rw [eq_nil_of_scan_run hrun h, respaceFrom_run _ before hrun]
    cases run <;> simp [fill, Gap.atEdge]
  | glyph run g rest hrun hg ih =>
    obtain ⟨left, kept', rfl, hscan, hleft⟩ := exists_of_scan_run hrun hg h
    have hkept : (g :: kept').filter (· != .char '\n') =
        g :: kept'.filter (· != .char '\n') := by
      apply List.filter_cons_of_pos
      rw [bne_iff_ne]
      rintro rfl
      exact Bool.noConfusion hg
    have hfill : left.filter (· != .char '\n') =
        fill (fun gap => if gap.atEdge || gap.run.contains (.char '\n') then [] else gap.run)
          before run (g :: rest) := by
      rw [hleft, startsLine_eq_isEmpty hbefore]
      cases run <;> simp [fill, Gap.atEdge]
    rw [List.filter_append, hkept, respaceFrom_ink _ before hrun hg, hfill,
      ih (by simpa using hg) hscan]

/-- The pattern of the ends of lines and the pattern of line feeds, one after the other, delete what
joining the lines deletes. -/
theorem line_patterns_join :
    ∃ edges feeds, Pattern.compile edgePattern = .ok edges ∧
      Pattern.compile feedPattern = .ok feeds ∧
      ∀ text, feeds.deleteAll (edges.deleteAll text) = joinLines text := by
  refine ⟨⟨edgePattern, edgeNode⟩, ⟨feedPattern, feedNode⟩, by decide +kernel, by decide +kernel, ?_⟩
  intro text
  have hfeeds : ∀ g : Glyph, (!(GlyphClass.only 10).contains g.code) = (g != .char '\n') := by
    intro g
    exact congrArg not (GlyphClass.contains_only '\n' g)
  show feedNode.deleteAll (edgeNode.deleteAll text) = joinLines text
  rw [feedNode, deleteAll_several]
  simp only [hfeeds]
  exact filter_of_scan_lineEdge (by simp) (edgeNode_takes.scan_deleteAll text)

/-- The first deletion leaves the line feed of a gap, unless another one or a blank at the start of
a line goes with it. -/
example : edgeNode.deleteAll (.ofString " a \n b\n\nc") = .ofString "a\nbc" := by
  decide +kernel

end Minifier.JavaScript
