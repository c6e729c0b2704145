import Mathlib.Data.List.Infix
import Minifier.Language.Css
import Minifier.Pattern
import Minifier.Proofs.Pattern.Scan
import Minifier.Proofs.Text.Neighbours

/-!
# Semicolons before a closing brace

`Css.dropLastSemicolons` deletes every semicolon whose next glyph of ink is a closing brace. It
reads the text as it was, so of several semicolons in a row only the last one goes:
`dropLastSemicolons` keeps a text exactly when its ink holds no `;\x7d`
(`dropLastSemicolons_eq_self_iff`), and leaves such a pair exactly when the ink held `;;\x7d`
(`isChain_dropLastSemicolons_ink_iff`). Deleting the semicolons commutes with every respacing that
deletes the gaps before semicolons and closing braces (`dropLastSemicolons_respace`).

The same semicolons are found by a pattern that looks ahead (`semicolonPattern_deletes`). What it
looks at stays in the text for the next match.
-/

set_option autoImplicit false

namespace Minifier.Css

open Text

/-- Two neighbours that are not a semicolon before a closing brace. -/
def NotLast (a b : Glyph) : Prop :=
  ¬ (a = .char ';' ∧ b = .char '\x7d')

theorem ofString_lastSemicolon : ofString ";\x7d" = [.char ';', .char '\x7d'] :=
  rfl

theorem ofString_doubleSemicolon : ofString ";;\x7d" = [.char ';', .char ';', .char '\x7d'] :=
  rfl

/-- A closing brace comes next iff the ink starts with one. -/
theorem closesNext_iff (text : Text) :
    closesNext text = true ↔ (ink text).head? = some (.char '\x7d') := by
  rw [closesNext, beq_iff_eq]
  induction text with
  | nil => rfl
  | cons g rest ih =>
    cases hg : g.isBlank with
    | true => rw [ink_cons_of_blank hg, List.dropWhile_cons_of_pos hg, ih]
    | false => rw [ink_cons_of_ink hg, List.dropWhile_cons_of_neg (by simp [hg])]; rfl

theorem closesNext_congr {text text' : Text} (h : ink text = ink text') :
    closesNext text = closesNext text' := by
  rw [Bool.eq_iff_iff, closesNext_iff, closesNext_iff, h]

/-- What comes next is a closing brace behind a run of blanks. -/
theorem exists_of_closesNext {text : Text} (h : closesNext text = true) :
    ∃ run rest : Text, IsRun run ∧ text = run ++ .char '\x7d' :: rest := by
  induction text using gap_induction with
  | run run hrun =>
    rw [closesNext_iff, hrun.ink_eq_nil] at h
    exact absurd h (by simp)
  | glyph run g rest hrun hg _ =>
    rw [closesNext_iff, ink_append, hrun.ink_eq_nil, ink_cons_of_ink hg, List.nil_append,
      List.head?_cons, Option.some_inj] at h
    exact ⟨run, rest, hrun, by rw [h]⟩

/-! ## What is deleted -/

theorem dropLastSemicolons_cons_of_last {rest : Text} (h : closesNext rest = true) :
    dropLastSemicolons (.char ';' :: rest) = dropLastSemicolons rest := by
  rw [dropLastSemicolons, if_pos (by simpa using h)]

theorem dropLastSemicolons_cons_of_kept {g : Glyph} {rest : Text}
    (h : ¬ (g = .char ';' ∧ closesNext rest = true)) :
    dropLastSemicolons (g :: rest) = g :: dropLastSemicolons rest := by
  rw [dropLastSemicolons, if_neg (by simpa using h)]

/-- Blanks are kept. -/
theorem dropLastSemicolons_run_append {run : Text} (h : IsRun run) (rest : Text) :
    dropLastSemicolons (run ++ rest) = run ++ dropLastSemicolons rest := by
  induction run with
  | nil => rfl
  | cons g run ih =>
    obtain ⟨hg, hrun⟩ := isRun_cons.1 h
    have hkept : ¬ (g = .char ';' ∧ closesNext (run ++ rest) = true) :=
      fun hlast => ne_of_isBlank hg (by decide) hlast.1
    rw [List.cons_append, dropLastSemicolons_cons_of_kept hkept, ih hrun, List.cons_append]

/-- Deleting the semicolons and taking the ink commute. -/
theorem ink_dropLastSemicolons (text : Text) :
    ink (dropLastSemicolons text) = dropLastSemicolons (ink text) := by
  have hsemicolon : (Glyph.char ';').isBlank = false := by decide
  induction text with
  | nil => rfl
  | cons g rest ih =>
    have hcloses : closesNext (ink rest) = closesNext rest :=
      closesNext_congr (by simp [ink])
    by_cases hlast : g = .char ';' ∧ closesNext rest = true
    · obtain ⟨rfl, hlast⟩ := hlast
      rw [dropLastSemicolons_cons_of_last hlast, ink_cons_of_ink hsemicolon,
        dropLastSemicolons_cons_of_last (hcloses.trans hlast), ih]
    · rw [dropLastSemicolons_cons_of_kept hlast]
      cases hg : g.isBlank with
      | true => rw [ink_cons_of_blank hg, ink_cons_of_blank hg, ih]
      | false =>
        rw [ink_cons_of_ink hg, ink_cons_of_ink hg,
          dropLastSemicolons_cons_of_kept (by rwa [hcloses]), ih]

theorem dropLastSemicolons_sublist (text : Text) : (dropLastSemicolons text).Sublist text := by
  fun_induction dropLastSemicolons text with
  | case1 => exact List.Sublist.refl _
  | case2 g rest _ ih => exact ih.cons g
  | case3 g rest _ ih => exact ih.cons_cons g

theorem dropLastSemicolons_length_le (text : Text) :
    (dropLastSemicolons text).length ≤ text.length :=
  (dropLastSemicolons_sublist text).length_le

/-- A text is kept iff no semicolon of its ink stands before a closing brace. -/
theorem dropLastSemicolons_eq_self_iff (text : Text) :
    dropLastSemicolons text = text ↔ (ink text).IsChain NotLast := by
  induction text with
  | nil => exact ⟨fun _ => List.IsChain.nil, fun _ => rfl⟩
  | cons g rest ih =>
    by_cases hlast : g = .char ';' ∧ closesNext rest = true
    · obtain ⟨rfl, hlast⟩ := hlast
      rw [dropLastSemicolons_cons_of_last hlast, ink_cons_of_ink (by decide), List.isChain_cons]
      constructor
      · -- the semicolon is gone, so the text is shorter
        intro h
        have hle := dropLastSemicolons_length_le rest
        rw [h, List.length_cons] at hle
        omega
      · intro h
        exact absurd ⟨rfl, rfl⟩ (h.1 _ ((closesNext_iff rest).1 hlast))
    · rw [dropLastSemicolons_cons_of_kept hlast, List.cons.injEq, and_iff_right rfl, ih]
      cases hg : g.isBlank with
      | true => rw [ink_cons_of_blank hg]
      | false =>
        rw [ink_cons_of_ink hg, List.isChain_cons]
        refine ⟨fun h => ⟨?_, h⟩, fun h => h.2⟩
        rintro b hb ⟨rfl, rfl⟩
        exact hlast ⟨rfl, (closesNext_iff rest).2 hb⟩

/-- In a text of ink, a closing brace comes to the front iff at most one semicolon was before
it. -/
theorem head?_dropLastSemicolons_ink {text : Text} (h : ∀ g ∈ text, g.isBlank = false) :
    (dropLastSemicolons text).head? = some (.char '\x7d') ↔
      text.head? = some (.char '\x7d') ∨ ofString ";\x7d" <+: text := by
  rw [ofString_lastSemicolon]
  cases text with
  | nil => simp [dropLastSemicolons]
  | cons g rest =>
    have hink : ink rest = rest := by
      simpa [ink] using fun b hb => h b (List.mem_cons_of_mem g hb)
    have hstart : [.char ';', .char '\x7d'] <+: g :: rest ↔
        g = .char ';' ∧ closesNext rest = true := by
      rw [closesNext_iff, hink]
      cases rest <;> simp [eq_comm]
    rw [hstart]
    by_cases hlast : g = .char ';' ∧ closesNext rest = true
    · -- no blanks come between the semicolon and the brace
      obtain ⟨run, behind, hrun, rfl⟩ := exists_of_closesNext hlast.2
      have hnil : run = [] := List.eq_nil_iff_forall_not_mem.2 fun b hb => by
        have hb' := h b (by simp [hb])
        rw [hrun b hb] at hb'
        exact Bool.noConfusion hb'
      rw [hlast.1, dropLastSemicolons_cons_of_last hlast.2, hnil, List.nil_append,
        dropLastSemicolons_cons_of_kept (by simp)]
      simp [closesNext_iff, ink, Glyph.isBlank, isBlankCode]
    · rw [dropLastSemicolons_cons_of_kept hlast]
      simp [hlast]

/-- In a text of ink, a semicolon is left before a closing brace iff there were two. -/
theorem isChain_dropLastSemicolons_ink_iff {text : Text} (h : ∀ g ∈ text, g.isBlank = false) :
    (dropLastSemicolons text).IsChain NotLast ↔ ¬ ofString ";;\x7d" <:+: text := by
  rw [ofString_doubleSemicolon]
  induction text with
  | nil => simp [dropLastSemicolons]
  | cons g rest ih =>
    have hrest : ∀ b ∈ rest, b.isBlank = false := fun b hb => h b (List.mem_cons_of_mem g hb)
    have hink : ink rest = rest := by simpa [ink] using hrest
    have hcloses : closesNext rest = true ↔ rest.head? = some (.char '\x7d') := by
      rw [closesNext_iff, hink]
    rw [List.infix_cons_iff, not_or, ← ih hrest]
    by_cases hlast : g = .char ';' ∧ closesNext rest = true
    · obtain ⟨rfl, hlast⟩ := hlast
      rw [dropLastSemicolons_cons_of_last hlast]
      refine ⟨fun hchain => ⟨?_, hchain⟩, fun hchain => hchain.2⟩
      -- the brace comes directly behind the first semicolon
      obtain ⟨rest, rfl⟩ := List.head?_eq_some_iff.1 (hcloses.1 hlast)
      simp
    · rw [dropLastSemicolons_cons_of_kept hlast, List.isChain_cons]
      refine and_congr_left fun _ => ?_
      have hhead := head?_dropLastSemicolons_ink hrest
      rw [ofString_lastSemicolon, ← hcloses] at hhead
      constructor
      · intro hchain hstart
        rw [List.cons_prefix_cons] at hstart
        exact hchain _ (hhead.2 (Or.inr hstart.2)) ⟨hstart.1.symm, rfl⟩
      · rintro hstart b hb ⟨rfl, rfl⟩
        -- the brace was next, or next but for a semicolon that is deleted
        rcases hhead.1 hb with hnext | hdouble
        · exact hlast ⟨rfl, hnext⟩
        · exact hstart (List.cons_prefix_cons.2 ⟨rfl, hdouble⟩)

/-! ## New neighbours -/

/-- The first glyph that is left was the first glyph, or is a blank or a closing brace. -/
theorem head?_dropLastSemicolons {text : Text} {b : Glyph}
    (h : b ∈ (dropLastSemicolons text).head?) :
    b ∈ text.head? ∨ b.isBlank = true ∨ b = .char '\x7d' := by
  cases text with
  | nil => simp [dropLastSemicolons] at h
  | cons g rest =>
    by_cases hlast : g = .char ';' ∧ closesNext rest = true
    · obtain ⟨run, behind, hrun, rfl⟩ := exists_of_closesNext hlast.2
      rw [hlast.1, dropLastSemicolons_cons_of_last hlast.2, dropLastSemicolons_run_append hrun] at h
      cases run with
      | nil =>
        rw [List.nil_append, dropLastSemicolons_cons_of_kept (by simp)] at h
        exact Or.inr (Or.inr (by simpa [eq_comm] using h))
      | cons c run =>
        obtain rfl : c = b := by simpa using h
        exact Or.inr (Or.inl (hrun c List.mem_cons_self))
    · rw [dropLastSemicolons_cons_of_kept hlast] at h
      exact Or.inl h

/-- Deleting the semicolons brings no forbidden pair about, unless one ends in a blank or in a
closing brace. -/
theorem isChain_dropLastSemicolons {R : Glyph → Glyph → Prop}
    (hR : ∀ a b, b.isBlank = true ∨ b = .char '\x7d' → R a b) {text : Text} (h : text.IsChain R) :
    (dropLastSemicolons text).IsChain R := by
  induction text with
  | nil => exact List.IsChain.nil
  | cons g rest ih =>
    rw [List.isChain_cons] at h
    by_cases hlast : g = .char ';' ∧ closesNext rest = true
    · rw [hlast.1, dropLastSemicolons_cons_of_last hlast.2]
      exact ih h.2
    · rw [dropLastSemicolons_cons_of_kept hlast, List.isChain_cons]
      refine ⟨fun b hb => ?_, ih h.2⟩
      rcases head?_dropLastSemicolons hb with hfirst | hnew
      · exact h.1 b hfirst
      · exact hR g b hnew

/-! ## Respacing -/

/-- Nothing of the gap before a closing brace is left, so what stands before it has no effect. -/
theorem respaceFrom_of_closesNext {rule : Gap → Text} (hlocal : Gap.IsLocal rule)
    (hbrace : ∀ gap : Gap, gap.after.head? = some (.char '\x7d') → rule gap = [])
    {text : Text} (h : closesNext text = true) {run : Text} (hrun : IsRun run)
    (before before' : Text) :
    respaceFrom rule before [] (run ++ text) = respaceFrom rule before' [] text := by
  have hink : (Glyph.char '\x7d').isBlank = false := by decide
  have hfill : ∀ (before run rest : Text), fill rule before run (.char '\x7d' :: rest) = [] := by
    intro before run rest
    cases run with
    | nil => rfl
    | cons g run => exact hbrace _ rfl
  obtain ⟨gap, rest, hgap, rfl⟩ := exists_of_closesNext h
  rw [← List.append_assoc, respaceFrom_ink rule before (isRun_append.2 ⟨hrun, hgap⟩) hink,
    respaceFrom_ink rule before' hgap hink, hfill, hfill]
  exact congrArg _ (congrArg _ (respaceFrom_congr_before hlocal rest rfl))

/-- Deleting the semicolons commutes with respacing by a rule that deletes the gaps before
semicolons and closing braces. -/
theorem dropLastSemicolons_respace {rule : Gap → Text} (hblank : Gap.WritesBlanks rule)
    (hlocal : Gap.IsLocal rule)
    (hsemicolon : ∀ gap : Gap, gap.after.head? = some (.char ';') → rule gap = [])
    (hbrace : ∀ gap : Gap, gap.after.head? = some (.char '\x7d') → rule gap = []) (text : Text) :
    dropLastSemicolons (respace rule text) = respace rule (dropLastSemicolons text) := by
  have key : ∀ before : Text,
      dropLastSemicolons (respaceFrom rule before [] text) =
        respaceFrom rule before [] (dropLastSemicolons text) := by
    induction text using gap_induction with
    | run run hrun =>
      intro before
      have hkept : ∀ {run : Text}, IsRun run → dropLastSemicolons run = run := by
        intro run hrun
        have h := dropLastSemicolons_run_append hrun []
        rwa [List.append_nil, dropLastSemicolons, List.append_nil] at h
      rw [respaceFrom_run rule before hrun, hkept (isRun_fill hblank before [] hrun), hkept hrun,
        respaceFrom_run rule before hrun]
    | glyph run g rest hrun hg ih =>
      intro before
      have hcloses : ∀ before : Text,
          closesNext (respaceFrom rule before [] rest) = closesNext rest :=
        fun before => closesNext_congr (ink_respaceFrom hblank rest before)
      rw [respaceFrom_ink rule before hrun hg, dropLastSemicolons_run_append hrun,
        dropLastSemicolons_run_append (isRun_fill hblank before (g :: rest) hrun)]
      by_cases hlast : g = .char ';' ∧ closesNext rest = true
      · -- the gaps on both sides of the deleted semicolon vanish
        obtain ⟨rfl, hlast⟩ := hlast
        have hgap : fill rule before run (.char ';' :: rest) = [] := by
          cases run with
          | nil => rfl
          | cons b run => exact hsemicolon _ rfl
        have hlast' : closesNext (dropLastSemicolons rest) = true := by
          obtain ⟨run, behind, hrun, rfl⟩ := exists_of_closesNext hlast
          rw [dropLastSemicolons_run_append hrun, dropLastSemicolons_cons_of_kept (by simp),
            closesNext_iff, ink_append, hrun.ink_eq_nil]
          rfl
        rw [dropLastSemicolons_cons_of_last hlast, hgap, List.nil_append,
          dropLastSemicolons_cons_of_last ((hcloses _).trans hlast), ih]
        exact (respaceFrom_of_closesNext hlocal hbrace hlast' hrun before _).symm
      · -- respacing keeps the ink, so the glyph is kept behind it as well
        have hkept : ¬ (g = .char ';' ∧
            closesNext (respaceFrom rule (g :: (run.reverse ++ before)) [] rest) = true) := by
          rwa [hcloses]
        rw [dropLastSemicolons_cons_of_kept hlast, dropLastSemicolons_cons_of_kept hkept, ih,
          respaceFrom_ink rule before hrun hg]
        congr 1
        cases run with
        | nil => rfl
        | cons b run => exact hlocal _ _ rfl rfl rfl
  exact key []

/-! ## The semicolons as a pattern -/

section Pattern

open Pattern

/-- The pattern of a semicolon before a closing brace. -/
def semicolonPattern : String :=
  ";(?=\\s*\x7d)"

/-- Blanks, if any, and a closing brace. -/
def braceNode : Node :=
  .seq (.several .blanks 0 none .greedy) (.one (.only 125))

def semicolonNode : Node :=
  .seq (.one (.only 59)) (.ahead false braceNode)

/-- The semicolon that a text starts with, if a closing brace comes next. -/
def lastSemicolon? : Text → Option Text
  | [] => none
  | g :: rest => if g = .char ';' ∧ closesNext rest = true then some [g] else none

theorem closesNext_eq_isPrefixOf (text : Text) :
    closesNext text = [.char '\x7d'].isPrefixOf (text.dropWhile Glyph.isBlank) := by
  rw [closesNext, Bool.eq_iff_iff, beq_iff_eq, List.isPrefixOf_iff_prefix]
  cases text.dropWhile Glyph.isBlank with
  | nil => simp
  | cons g rest => simp [eq_comm]

/-- Looking ahead finds a closing brace behind all blanks or not at all. -/
theorem run_braceNode {s : Cursor} (hleft : s.rest.length ≤ s.left) :
    braceNode.run some s =
      if closesNext s.rest then
        some (s.behind (s.rest.takeWhile Glyph.isBlank ++ [.char '\x7d']))
      else none := by
  show (Node.several .blanks 0 none .greedy).run
    (fun e => (Node.spelled ['\x7d'] .empty).run some e) s = _
  rw [run_greedy_spelled (by decide) [] hleft, run_spelled, GlyphClass.firstOf_blanks,
    Cursor.rest_behind_takeWhile, Cursor.behind_behind, closesNext_eq_isPrefixOf]
  rfl

theorem semicolonNode_takes : semicolonNode.Takes fun _ => lastSemicolon? := by
  constructor
  · intro next s hleft hnext
    show (Node.spelled [';'] (.ahead false braceNode)).run next s = _
    have hsemicolon : (s.behind [.char ';']).rest.length ≤ (s.behind [.char ';']).left :=
      Cursor.rest_behind_le hleft [.char ';']
    rw [run_spelled, List.map_singleton, Node.run_ahead, run_braceNode hsemicolon]
    cases hrest : s.rest with
    | nil => rfl
    | cons g rest =>
      -- looking ahead starts behind the glyph that stands here
      have hcloses : closesNext (s.behind [.char ';']).rest = closesNext rest := by
        rw [Cursor.behind, hrest]
        rfl
      rw [hcloses, lastSemicolon?]
      by_cases hg : g = .char ';'
      · subst hg
        have hcontent : next (s.behind [.char ';']) = some (s.behind [.char ';']) :=
          hnext _ (Nat.lt_succ_self s.index)
        cases closesNext rest with
        | true => exact hcontent
        | false => rfl
      · have hopens : ¬ [.char ';'].isPrefixOf (g :: rest) = true := by
          simpa using Ne.symm hg
        rw [if_neg hopens, if_neg fun hlast => hg hlast.1]
        rfl
  · intro before rest body hbody
    cases rest with
    | nil => cases hbody
    | cons g rest =>
      rw [lastSemicolon?] at hbody
      split_ifs at hbody
      cases hbody
      exact ⟨List.cons_ne_nil _ _, rest, rfl⟩

/-- The pattern of a semicolon before a closing brace deletes what `dropLastSemicolons` deletes. -/
theorem semicolonPattern_deletes :
    ∃ pattern, Pattern.compile semicolonPattern = .ok pattern ∧
      ∀ text, pattern.deleteAll text = dropLastSemicolons text := by
  refine ⟨⟨semicolonPattern, semicolonNode⟩, by decide +kernel, ?_⟩
  intro text
  -- on the scan: it deletes a semicolon just where one is dropped
  have key : ∀ {before text kept : Text}, Scan (fun _ => lastSemicolon?) before text kept →
      kept = dropLastSemicolons text := by
    intro before text kept h
    induction h with
    | nil => rfl
    | skip hnone _ ih =>
      rw [lastSemicolon?] at hnone
      split_ifs at hnone with hlast
      rw [dropLastSemicolons_cons_of_kept hlast, ih]
    | @hit before body rest kept hbody _ ih =>
      generalize htext : body ++ rest = text at hbody
      cases text with
      | nil => cases hbody
      | cons g others =>
        rw [lastSemicolon?] at hbody
        split_ifs at hbody with hlast
        obtain ⟨rfl, hcloses⟩ := hlast
        cases hbody
        obtain rfl : rest = others := (List.cons.inj htext).2
        exact ih.trans (dropLastSemicolons_cons_of_last hcloses).symm
  exact key (semicolonNode_takes.scan_deleteAll text)

end Pattern

end Minifier.Css
