import Minifier.Language.Sql
import Minifier.Proofs.Comment.Dashes

/-!
# When minified SQL begins with a comment marker

Minified SQL is one line, so that two dashes at its front turn all of it into a comment. A dash
comment is deleted only where it opens a line, and the lines are those of the original text. Two
dashes come to the front when all that stands before them vanishes, and when they did not open a
line: a block comment or a blank other than a space or a tab was before them, or a block comment
between them. `DashesSurface` says this of a text without reference to minification, and
`not_dashes_prefix_minify_iff` that it is exact; two dashes behind a block comment are an example
(`dashes_surface_behind_block`).
-/

set_option autoImplicit false

namespace Minifier.Sql

open Text Comment

/-! ## Texts whose dashes surface -/

/-- The next glyph that is not in a block comment is a dash. -/
inductive DashFollows : Text → Prop
  | dash (rest : Text) : DashFollows (.char '-' :: rest)
  | block {body rest : Text} : ¬ ofString "*/" <:+: body → DashFollows rest →
      DashFollows (.char '/' :: .char '*' :: (body ++ .char '*' :: .char '/' :: rest))

/-- Two dashes come first when blanks, block comments and lines that open with two dashes are left
out. `opening` says that only spaces and tabs stand between here and the start of the line. -/
inductive DashesSurface : Bool → Text → Prop
  | blank {opening : Bool} {g : Glyph} {rest : Text} : g.isBlank = true →
      DashesSurface (g = .char '\n' || opening && (g = .char ' ' || g = .char '\t')) rest →
      DashesSurface opening (g :: rest)
  | line {body rest : Text} : .char '\n' ∉ body → DashesSurface true rest →
      DashesSurface true (.char '-' :: .char '-' :: (body ++ .char '\n' :: rest))
  | block {opening : Bool} {body rest : Text} : ¬ ofString "*/" <:+: body →
      DashesSurface false rest →
      DashesSurface opening
        (.char '/' :: .char '*' :: (body ++ .char '*' :: .char '/' :: rest))
  | dashes {opening : Bool} {rest : Text} : DashFollows rest →
      (opening = true → rest.head? ≠ some (.char '-')) →
      DashesSurface opening (.char '-' :: rest)

/-! ## The front of a text -/

/-- The ink of a text begins with two dashes that stand next to each other. -/
def Leads (text : Text) : Prop :=
  ofString "--" <+: text.dropWhile Glyph.isBlank

theorem not_leads_nil : ¬ Leads [] := by
  rw [Leads, ofString_dashes]
  simp

theorem leads_cons_of_blank {g : Glyph} (hg : g.isBlank = true) (rest : Text) :
    Leads (g :: rest) ↔ Leads rest := by
  rw [Leads, Leads, List.dropWhile_cons_of_pos hg]

theorem leads_cons_of_ink {g : Glyph} (hg : g.isBlank = false) (rest : Text) :
    Leads (g :: rest) ↔ g = .char '-' ∧ rest.head? = some (.char '-') := by
  rw [Leads, List.dropWhile_cons_of_neg (by simp [hg]), ofString_dashes]
  cases rest <;> simp [eq_comm]

theorem leads_run_append {run : Text} (h : IsRun run) (rest : Text) :
    Leads (run ++ rest) ↔ Leads rest := by
  induction run with
  | nil => rfl
  | cons g run ih =>
    have hrun : IsRun run := fun b hb => h b (List.mem_cons_of_mem g hb)
    rw [List.cons_append, leads_cons_of_blank (h g List.mem_cons_self), ih hrun]

/-- Behind a glyph, collapsing keeps a dash at the front, and lets none come there. -/
theorem head?_collapse_eq_dash_iff {before : Text} (hbefore : before ≠ []) (text : Text) :
    (respaceFrom (spaceUnless Gap.atEdge) before [] text).head? = some (.char '-') ↔
      text.head? = some (.char '-') := by
  have hrun : ∀ {run : Text}, IsRun run → run.head? ≠ some (.char '-') := by
    intro run hrun hhead
    exact ne_of_isBlank (hrun _ (List.mem_of_head? hhead)) (by decide) rfl
  induction text using gap_induction with
  | run run hblank =>
    have hfilled := isRun_fill (writesBlanks_spaceUnless Gap.atEdge) before [] hblank
    rw [respaceFrom_run _ before hblank]
    exact iff_of_false (hrun hfilled) (hrun hblank)
  | glyph run g rest hblank hg _ =>
    rw [respaceFrom_ink _ before hblank hg]
    cases run with
    | nil => rfl
    | cons b run =>
      -- the gap is a space before and after
      have hinside : Gap.atEdge ⟨before, b :: run, g :: rest⟩ = false := by
        simp [Gap.atEdge, hbefore]
      have hb : b ≠ .char '-' := fun hdash => hrun hblank (by rw [hdash]; rfl)
      rw [fill_of_ne_nil _ _ _ (List.cons_ne_nil b run), spaceUnless, hinside]
      simp [hb]

/-- Collapsing leaves two dashes at the front iff they lead the text. -/
theorem dashes_prefix_collapse_iff (text : Text) :
    ofString "--" <+: collapse text ↔ Leads text := by
  rw [collapse_eq_respace, respace]
  induction text using gap_induction with
  | run run hrun =>
    have hleads := leads_run_append hrun []
    rw [List.append_nil] at hleads
    rw [respaceFrom_run _ _ hrun, hleads, fill_eq_nil_of_edge spaceUnless_of_atEdge (.inl rfl)]
    exact iff_of_false (by decide) not_leads_nil
  | glyph run g rest hrun hg _ =>
    rw [respaceFrom_ink _ _ hrun hg, leads_run_append hrun, leads_cons_of_ink hg,
      fill_eq_nil_of_edge spaceUnless_of_atEdge (.inl rfl), List.nil_append, ofString_dashes,
      List.cons_prefix_cons, eq_comm,
      ← head?_collapse_eq_dash_iff (List.cons_ne_nil g _) rest]
    refine and_congr_right fun _ => ?_
    cases respaceFrom (spaceUnless Gap.atEdge) (g :: (run.reverse ++ [])) [] rest <;>
      simp [eq_comm]

/-! ## Surfacing dashes -/

/-- Off the start of a line, the first glyph that is left is a dash iff the next glyph that is in no
block comment is one. -/
theorem head?_stripDashFrom_iff (text : Text) :
    (stripDashFrom .code false text).head? = some (.char '-') ↔ DashFollows text := by
  constructor
  · intro h
    -- behind a block comment the claim is needed of a text that is not the tail of this one
    induction hlength : text.length using Nat.strong_induction_on generalizing text with
    | _ n ih =>
      cases text with
      | nil => simp [stripDashFrom_nil] at h
      | cons g rest =>
        by_cases hblock : g = .char '/' ∧ rest.head? = some (.char '*')
        · have hleft : stripDashFrom .code false (g :: rest) ≠ [] := by
            intro hnil
            simp [hnil] at h
          obtain ⟨body, behind, hbody, htext, hshorter, hstrip⟩ := exists_of_opensBlock hblock hleft
          rw [hstrip] at h
          rw [htext]
          exact DashFollows.block hbody (ih _ (hlength ▸ hshorter) behind h rfl)
        · rw [stripDashFrom_code_copy (Bool.false_and _) hblock, List.head?_cons,
            Option.some_inj] at h
          rw [h]
          exact DashFollows.dash rest
  · intro h
    induction h with
    | dash rest => rw [stripDashFrom_code_copy (Bool.false_and _) (by simp), List.head?_cons]
    | block hbody _ ih => rwa [stripDashFrom_code_block, stripDashFrom_block_append hbody]

/-- A reader that deletes comments knows as `fresh` whether a line starts here, and looks there for
a dash comment behind spaces and tabs. Further on in such a line it knows that none opens. -/
structure Reads (fresh opening : Bool) (text : Text) : Prop where
  opening_of_fresh : fresh = true → opening = true
  fresh_or : opening = true → fresh = true ∨ opensDashLine text = false

theorem Reads.refl (fresh : Bool) (text : Text) : Reads fresh fresh text :=
  ⟨id, Or.inl⟩

/-- Where no dash comment opens, the reader copies a glyph and reads on. -/
theorem Reads.step {fresh opening : Bool} {g : Glyph} {rest : Text}
    (h : Reads fresh opening (g :: rest))
    (hopens : (fresh && opensDashLine (g :: rest)) = false) :
    Reads (g = .char '\n')
      (g = .char '\n' || opening && (g = .char ' ' || g = .char '\t')) rest := by
  refine ⟨fun hg => by rw [hg, Bool.true_or], fun hopening => ?_⟩
  by_cases hg : g = .char '\n'
  · exact Or.inl (decide_eq_true hg)
  · simp only [hg, decide_false, Bool.false_or, Bool.and_eq_true, Bool.or_eq_true,
      decide_eq_true_eq] at hopening
    rw [← opensDashLine_cons_of_indent hopening.2 rest]
    rcases h.fresh_or hopening.1 with hfresh | hnone
    · rw [hfresh, Bool.true_and] at hopens
      exact Or.inr hopens
    · exact Or.inr hnone

theorem opening_eq_true_of_indent {g : Glyph} (h : g = .char ' ' ∨ g = .char '\t') :
    (g = .char '\n' || true && (g = .char ' ' || g = .char '\t') : Bool) = true := by
  rcases h with rfl | rfl <;> decide

/-- Spaces and tabs before a dash comment make no difference to the reader. -/
theorem stripDashFrom_code_indent {g : Glyph} {rest : Text}
    (h : opensDashLine (g :: rest) = true) (hg : g = .char ' ' ∨ g = .char '\t') :
    stripDashFrom .code true (g :: rest) = stripDashFrom .code true rest := by
  have hrest : opensDashLine rest = true := by rwa [opensDashLine_cons_of_indent hg] at h
  rw [stripDashFrom_code_of_opens (by rwa [Bool.true_and])]
  cases rest with
  | nil => exact absurd hrest (by decide)
  | cons c rest =>
    have hc : c ≠ .char '\n' := by
      rintro rfl
      exact absurd (indent_or_dash_of_opensDashLine hrest) (by decide)
    rw [stripDashFrom_code_of_opens (by rwa [Bool.true_and]), stripDashFrom_line_cons,
      if_neg hc]

/-- Dashes surface if they do so behind a line that a dash comment opens. -/
theorem dashesSurface_of_opensDashLine {body rest : Text} (hbody : .char '\n' ∉ body)
    (hopens : opensDashLine (body ++ .char '\n' :: rest) = true)
    (h : DashesSurface true rest) : DashesSurface true (body ++ .char '\n' :: rest) := by
  induction body with
  | nil => exact absurd (indent_or_dash_of_opensDashLine hopens) (by decide)
  | cons g body ih =>
    rw [List.mem_cons, not_or] at hbody
    rcases indent_or_dash_of_opensDashLine hopens with hindent | rfl
    · have hblank : g.isBlank = true := by rcases hindent with rfl | rfl <;> decide
      rw [List.cons_append, opensDashLine_cons_of_indent hindent] at hopens
      refine DashesSurface.blank hblank ?_
      rw [opening_eq_true_of_indent hindent]
      exact ih hbody.2 hopens
    · rw [List.cons_append, opensDashLine_dash_iff] at hopens
      -- the second dash is in the line too, since it is no line feed
      cases body with
      | nil => simp at hopens
      | cons c body =>
        obtain rfl : c = .char '-' := by simpa using hopens
        exact DashesSurface.line (fun hmem => hbody.2 (List.mem_cons_of_mem _ hmem)) h

/-- Surfacing dashes lead what is left when the comments are deleted. -/
theorem leads_of_dashesSurface {opening : Bool} {text : Text} (h : DashesSurface opening text) :
    ∀ fresh : Bool, Reads fresh opening text → Leads (stripDashFrom .code fresh text) := by
  induction h with
  | @blank opening g rest hblank _ ih =>
    intro fresh hreads
    have hdash : g ≠ .char '-' := ne_of_isBlank hblank (by decide)
    cases hopens : fresh && opensDashLine (g :: rest) with
    | true =>
      -- the reader is in the dash comment already, the derivation still in the spaces before it
      obtain ⟨rfl, hline⟩ := Bool.and_eq_true_iff.1 hopens
      have hindent : g = .char ' ' ∨ g = .char '\t' :=
        (indent_or_dash_of_opensDashLine hline).resolve_right hdash
      rw [stripDashFrom_code_indent hline hindent]
      refine ih true ?_
      rw [hreads.opening_of_fresh rfl, opening_eq_true_of_indent hindent]
      exact Reads.refl true rest
    | false =>
      have hslash : ¬ (g = .char '/' ∧ rest.head? = some (.char '*')) :=
        fun hblock => ne_of_isBlank hblank (by decide) hblock.1
      rw [stripDashFrom_code_copy hopens hslash, leads_cons_of_blank hblank]
      exact ih _ (hreads.step hopens)
  | @line body rest hbody _ ih =>
    intro fresh hreads
    have hopens : opensDashLine (.char '-' :: .char '-' :: (body ++ .char '\n' :: rest)) = true :=
      (opensDashLine_dash_iff _).2 rfl
    have hfresh : fresh = true := by
      rcases hreads.fresh_or rfl with hfresh | hnone
      · exact hfresh
      · rw [hopens] at hnone
        exact absurd hnone.symm Bool.false_ne_true
    have hline : Glyph.char '\n' ∉ (Glyph.char '-' :: body) := by simp [hbody]
    rw [stripDashFrom_code_of_opens (by rw [hfresh, hopens]; rfl), ← List.cons_append,
      stripDashFrom_line_append hline, leads_cons_of_blank (by decide)]
    exact ih true (Reads.refl true rest)
  | @block opening body rest hbody _ ih =>
    intro fresh _
    rw [stripDashFrom_code_block, stripDashFrom_block_append hbody]
    exact ih false (Reads.refl false rest)
  | @dashes opening rest hdash hopening =>
    intro fresh hreads
    have hopens : (fresh && opensDashLine (.char '-' :: rest)) = false := by
      cases fresh with
      | false => rfl
      | true =>
        rw [Bool.true_and, Bool.eq_false_iff, Ne, opensDashLine_dash_iff]
        exact hopening (hreads.opening_of_fresh rfl)
    rw [stripDashFrom_code_copy hopens (by simp), leads_cons_of_ink (by decide)]
    exact ⟨rfl, (head?_stripDashFrom_iff rest).2 hdash⟩

/-- Dashes that lead what is left when the comments are deleted surface. -/
theorem dashesSurface_of_leads {fresh opening : Bool} {text : Text}
    (hreads : Reads fresh opening text) (h : Leads (stripDashFrom .code fresh text)) :
    DashesSurface opening text := by
  induction hlength : text.length using Nat.strong_induction_on
    generalizing fresh opening text with
  | _ n ih =>
    cases text with
    | nil =>
      rw [stripDashFrom_nil] at h
      exact absurd h not_leads_nil
    | cons g rest =>
      have hleft : stripDashFrom .code fresh (g :: rest) ≠ [] := by
        intro hnil
        rw [hnil] at h
        exact not_leads_nil h
      cases hopens : fresh && opensDashLine (g :: rest) with
      | true =>
        obtain ⟨hfresh, hline⟩ := Bool.and_eq_true_iff.1 hopens
        -- the reader deletes the line at once, the derivation reads the blanks before it first
        obtain ⟨body, behind, hbody, htext, hshorter, hstrip⟩ := exists_of_opensLine hopens hleft
        rw [hstrip, leads_cons_of_blank (by decide)] at h
        have hbehind : DashesSurface true behind :=
          ih _ (hlength ▸ hshorter) (Reads.refl true behind) h rfl
        rw [hreads.opening_of_fresh hfresh, htext]
        rw [htext] at hline
        exact dashesSurface_of_opensDashLine hbody hline hbehind
      | false =>
        by_cases hblock : g = .char '/' ∧ rest.head? = some (.char '*')
        · obtain ⟨body, behind, hbody, htext, hshorter, hstrip⟩ := exists_of_opensBlock hblock hleft
          rw [hstrip] at h
          rw [htext]
          exact DashesSurface.block hbody
            (ih _ (hlength ▸ hshorter) (Reads.refl false behind) h rfl)
        · rw [stripDashFrom_code_copy hopens hblock] at h
          cases hblank : g.isBlank with
          | true =>
            rw [leads_cons_of_blank hblank] at h
            have hshorter : rest.length < n := hlength ▸ Nat.lt_succ_self rest.length
            exact DashesSurface.blank hblank (ih _ hshorter (hreads.step hopens) h rfl)
          | false =>
            rw [leads_cons_of_ink hblank] at h
            obtain ⟨rfl, hdash⟩ := h
            refine DashesSurface.dashes ((head?_stripDashFrom_iff rest).1 hdash) ?_
            -- a dash right behind this one would have opened a dash comment
            intro hopening
            rw [Ne, ← opensDashLine_dash_iff, Bool.not_eq_true]
            rcases hreads.fresh_or hopening with hfresh | hnone
            · rwa [hfresh, Bool.true_and] at hopens
            · exact hnone

/-- Minified SQL does not begin with two dashes iff no dashes surface in the text. -/
theorem not_dashes_prefix_minify_iff (text : Text) :
    ¬ ofString "--" <+: minify text ↔ ¬ DashesSurface true text := by
  have hreads : Reads true true text := Reads.refl true text
  rw [minify, dashes_prefix_collapse_iff, stripDashComments]
  exact not_congr ⟨dashesSurface_of_leads hreads, fun h => leads_of_dashesSurface h true hreads⟩

/-- Dashes behind a block comment stay, and come to the front of all the statements. -/
theorem dashes_surface_behind_block :
    minify (ofString "/* c */-- x\nSELECT 1") = ofString "-- x SELECT 1" ∧
      ofString "--" <+: minify (ofString "/* c */-- x\nSELECT 1") := by
  have hminify : minify (ofString "/* c */-- x\nSELECT 1") = ofString "-- x SELECT 1" := by cbv
  refine ⟨hminify, ?_⟩
  rw [hminify]
  exact ⟨ofString " x SELECT 1", rfl⟩

end Minifier.Sql
