import Mathlib.Data.List.Infix
import Minifier.Proofs.Comment.Markers

/-!
# Dash and block comments

`stripDashFrom` reads a text glyph by glyph. The laws here say what it does with one glyph in each
mode (`stripDashFrom_code_cons`, `stripDashFrom_line_cons`, `stripDashFrom_block_cons`), and from
that what it does with a whole comment: a dash comment is deleted up to the next line feed, which
stays (`stripDashFrom_line_append`), and a block comment up to the first marker that ends it
(`stripDashFrom_block_append`). A comment that does not end takes the rest of the text with it, so a
comment behind which something is left does end (`exists_of_opensLine`, `exists_of_opensBlock`). In
a single line only the first dashes can open a dash comment, and behind its start none does
(`stripDashFrom_code_of_not_mem`).
-/

set_option autoImplicit false

namespace Minifier

namespace Comment

theorem ofString_dashes : Text.ofString "--" = [.char '-', .char '-'] :=
  rfl

/-! ## Where a dash comment opens -/

theorem opensDashLine_cons (g : Glyph) (rest : Text) :
    opensDashLine (g :: rest) =
      if g = .char ' ' ∨ g = .char '\t' then opensDashLine rest
      else decide (g = .char '-' ∧ rest.head? = some (.char '-')) := by
  rw [opensDashLine]
  split_ifs with hindent
  · rw [List.dropWhile_cons_of_pos (by simpa using hindent)]
    rfl
  · rw [List.dropWhile_cons_of_neg (by simpa using hindent)]
    cases rest with
    | nil => simp
    | cons c rest =>
      by_cases hg : g = .char '-'
      · by_cases hc : c = .char '-'
        · simp [hg, hc]
        · simp [hc]
      · simp [hg]

theorem opensDashLine_cons_of_indent {g : Glyph} (h : g = .char ' ' ∨ g = .char '\t')
    (rest : Text) : opensDashLine (g :: rest) = opensDashLine rest := by
  rw [opensDashLine_cons, if_pos h]

/-- A dash opens a dash comment iff another dash follows. -/
theorem opensDashLine_dash_iff (rest : Text) :
    opensDashLine (.char '-' :: rest) = true ↔ rest.head? = some (.char '-') := by
  rw [opensDashLine_cons, if_neg (by decide), decide_eq_true_eq, and_iff_right rfl]

theorem opensDashLine_cons_of_ne {g : Glyph} (h : ¬ (g = .char ' ' ∨ g = .char '\t'))
    (hdash : g ≠ .char '-') (rest : Text) : opensDashLine (g :: rest) = false := by
  rw [opensDashLine_cons, if_neg h, decide_eq_false fun hdashes => hdash hdashes.1]

/-- A dash comment opens with a space, a tab or a dash. -/
theorem indent_or_dash_of_opensDashLine {g : Glyph} {rest : Text}
    (h : opensDashLine (g :: rest) = true) : (g = .char ' ' ∨ g = .char '\t') ∨ g = .char '-' := by
  by_contra hnone
  rw [not_or] at hnone
  rw [opensDashLine_cons_of_ne hnone.1 hnone.2] at h
  exact Bool.false_ne_true h

/-! ## One glyph -/

theorem stripDashFrom_nil (mode : Mode) (fresh : Bool) : stripDashFrom mode fresh [] = [] := by
  cases mode <;> rfl

/-- In code a reader looks for a dash comment, then for a block comment. -/
theorem stripDashFrom_code_cons (fresh : Bool) (g : Glyph) (rest : Text) :
    stripDashFrom .code fresh (g :: rest) =
      if fresh && opensDashLine (g :: rest) then stripDashFrom .line false rest
      else if g = .char '/' ∧ rest.head? = some (.char '*') then
        stripDashFrom .block false rest.tail
      else g :: stripDashFrom .code (g = .char '\n') rest := by
  by_cases hblock : g = .char '/' ∧ rest.head? = some (.char '*')
  · obtain ⟨rfl, hstar⟩ := hblock
    obtain ⟨rest, rfl⟩ := List.head?_eq_some_iff.1 hstar
    rfl
  · rw [stripDashFrom, if_neg hblock]
    rintro rest' rfl rfl
    exact hblock ⟨rfl, rfl⟩

theorem stripDashFrom_line_cons (fresh : Bool) (g : Glyph) (rest : Text) :
    stripDashFrom .line fresh (g :: rest) =
      if g = .char '\n' then g :: stripDashFrom .code true rest
      else stripDashFrom .line false rest :=
  rfl

theorem stripDashFrom_block_cons (fresh : Bool) (g : Glyph) (rest : Text) :
    stripDashFrom .block fresh (g :: rest) =
      if g = .char '*' ∧ rest.head? = some (.char '/') then stripDashFrom .code false rest.tail
      else stripDashFrom .block false rest := by
  by_cases hend : g = .char '*' ∧ rest.head? = some (.char '/')
  · obtain ⟨rfl, hslash⟩ := hend
    obtain ⟨rest, rfl⟩ := List.head?_eq_some_iff.1 hslash
    rfl
  · rw [stripDashFrom, if_neg hend]
    rintro rest' rfl rfl
    exact hend ⟨rfl, rfl⟩

theorem stripDashFrom_code_of_opens {fresh : Bool} {g : Glyph} {rest : Text}
    (h : (fresh && opensDashLine (g :: rest)) = true) :
    stripDashFrom .code fresh (g :: rest) = stripDashFrom .line false rest := by
  rw [stripDashFrom_code_cons, if_pos h]

theorem stripDashFrom_code_block (fresh : Bool) (rest : Text) :
    stripDashFrom .code fresh (.char '/' :: .char '*' :: rest) =
      stripDashFrom .block false rest := by
  rw [stripDashFrom_code_cons, opensDashLine_cons_of_ne (by decide) (by decide), Bool.and_false,
    if_neg Bool.false_ne_true, if_pos ⟨rfl, rfl⟩, List.tail_cons]

theorem stripDashFrom_code_copy {fresh : Bool} {g : Glyph} {rest : Text}
    (h : (fresh && opensDashLine (g :: rest)) = false)
    (hblock : ¬ (g = .char '/' ∧ rest.head? = some (.char '*'))) :
    stripDashFrom .code fresh (g :: rest) =
      g :: stripDashFrom .code (g = .char '\n') rest := by
  rw [stripDashFrom_code_cons, h, if_neg Bool.false_ne_true, if_neg hblock]

/-! ## Whole comments -/

/-- A dash comment goes up to the end of its line. -/
theorem stripDashFrom_line_append {body : Text} (h : .char '\n' ∉ body) (fresh : Bool)
    (rest : Text) :
    stripDashFrom .line fresh (body ++ .char '\n' :: rest) =
      .char '\n' :: stripDashFrom .code true rest := by
  induction body generalizing fresh with
  | nil => rw [List.nil_append, stripDashFrom_line_cons, if_pos rfl]
  | cons g body ih =>
    rw [List.mem_cons, not_or] at h
    rw [List.cons_append, stripDashFrom_line_cons, if_neg (Ne.symm h.1), ih h.2]

theorem readsBlock_stripDashFrom :
    ReadsBlock (stripDashFrom .block false) (stripDashFrom .code false) :=
  ⟨rfl, stripDashFrom_block_cons false⟩

/-- A block comment goes up to the first marker that ends it. -/
theorem stripDashFrom_block_append {body : Text} (h : ¬ Text.ofString "*/" <:+: body)
    (rest : Text) :
    stripDashFrom .block false (body ++ .char '*' :: .char '/' :: rest) =
      stripDashFrom .code false rest :=
  readsBlock_stripDashFrom.append h rest

/-- A dash comment behind which something is left ends before a line feed. -/
theorem exists_of_stripDashFrom_line {fresh : Bool} {text : Text}
    (h : stripDashFrom .line fresh text ≠ []) :
    ∃ body rest : Text, .char '\n' ∉ body ∧ text = body ++ .char '\n' :: rest := by
  induction text generalizing fresh with
  | nil => exact absurd (stripDashFrom_nil _ _) h
  | cons g text ih =>
    by_cases hg : g = .char '\n'
    · exact ⟨[], text, List.not_mem_nil, by rw [hg]; rfl⟩
    · rw [stripDashFrom_line_cons, if_neg hg] at h
      obtain ⟨body, rest, hbody, rfl⟩ := ih h
      have hline : Glyph.char '\n' ∉ g :: body := by simp [hbody, Ne.symm hg]
      exact ⟨g :: body, rest, hline, rfl⟩

/-- A block comment behind which something is left has a marker that ends it. -/
theorem exists_of_stripDashFrom_block {fresh : Bool} {text : Text}
    (h : stripDashFrom .block fresh text ≠ []) :
    ∃ body rest : Text, ¬ Text.ofString "*/" <:+: body ∧
      text = body ++ .char '*' :: .char '/' :: rest := by
  induction text generalizing fresh with
  | nil => exact absurd (stripDashFrom_nil _ _) h
  | cons g text ih =>
    by_cases hend : g = .char '*' ∧ text.head? = some (.char '/')
    · obtain ⟨rfl, hslash⟩ := hend
      obtain ⟨rest, rfl⟩ := List.head?_eq_some_iff.1 hslash
      exact ⟨[], rest, by decide, rfl⟩
    · rw [stripDashFrom_block_cons, if_neg hend] at h
      obtain ⟨body, rest, hbody, rfl⟩ := ih h
      refine ⟨g :: body, rest, ?_, rfl⟩
      rw [ofString_blockEnd, Text.not_pair_infix_iff] at hbody ⊢
      refine List.isChain_cons.2 ⟨?_, hbody⟩
      -- the marker would end the comment at `g` already
      rintro b hb ⟨rfl, rfl⟩
      exact hend ⟨rfl, by rw [List.head?_append, hb]; rfl⟩

/-- A text that opens with a block comment goes on behind the comment, if anything is left of it. -/
theorem exists_of_opensBlock {fresh : Bool} {g : Glyph} {rest : Text}
    (hopens : g = .char '/' ∧ rest.head? = some (.char '*'))
    (h : stripDashFrom .code fresh (g :: rest) ≠ []) :
    ∃ body behind : Text, ¬ Text.ofString "*/" <:+: body ∧
      g :: rest = .char '/' :: .char '*' :: (body ++ .char '*' :: .char '/' :: behind) ∧
      behind.length < (g :: rest).length ∧
      stripDashFrom .code fresh (g :: rest) = stripDashFrom .code false behind := by
  obtain ⟨rfl, hstar⟩ := hopens
  obtain ⟨rest, rfl⟩ := List.head?_eq_some_iff.1 hstar
  rw [stripDashFrom_code_block] at h ⊢
  obtain ⟨body, behind, hbody, rfl⟩ := exists_of_stripDashFrom_block h
  refine ⟨body, behind, hbody, rfl, ?_, stripDashFrom_block_append hbody behind⟩
  simp only [List.length_cons, List.length_append]
  omega

/-- A text that opens with a dash comment goes on with the line feed behind it, if anything is left
of it. -/
theorem exists_of_opensLine {fresh : Bool} {g : Glyph} {rest : Text}
    (hopens : (fresh && opensDashLine (g :: rest)) = true)
    (h : stripDashFrom .code fresh (g :: rest) ≠ []) :
    ∃ body behind : Text, .char '\n' ∉ body ∧ g :: rest = body ++ .char '\n' :: behind ∧
      behind.length < (g :: rest).length ∧
      stripDashFrom .code fresh (g :: rest) = .char '\n' :: stripDashFrom .code true behind := by
  have hg : g ≠ .char '\n' := by
    rintro rfl
    have hline := (Bool.and_eq_true_iff.1 hopens).2
    exact absurd (indent_or_dash_of_opensDashLine hline) (by decide)
  rw [stripDashFrom_code_of_opens hopens] at h ⊢
  obtain ⟨body, behind, hbody, rfl⟩ := exists_of_stripDashFrom_line h
  have hline : Glyph.char '\n' ∉ g :: body := by simp [hbody, Ne.symm hg]
  refine ⟨g :: body, behind, hline, rfl, ?_, stripDashFrom_line_append hbody false behind⟩
  simp only [List.length_cons, List.length_append]
  omega

theorem stripDashFrom_sublist (mode : Mode) (fresh : Bool) (text : Text) :
    (stripDashFrom mode fresh text).Sublist text := by
  fun_induction stripDashFrom mode fresh text with
  | case1 => exact List.Sublist.refl _
  | case2 fresh g rest _ ih => exact ih.cons g
  | case3 fresh rest _ ih => exact (ih.cons _).cons _
  | case4 fresh g rest _ _ ih => exact ih.cons_cons g
  | case5 fresh rest ih => exact ih.cons_cons _
  | case6 fresh g rest _ ih => exact ih.cons g
  | case7 fresh rest ih => exact (ih.cons _).cons _
  | case8 fresh g rest _ ih => exact ih.cons g

/-! ## One line -/

/-- A dash comment in the last line goes up to the end of the text. -/
theorem stripDashFrom_line_of_not_mem {text : Text} (h : .char '\n' ∉ text) (fresh : Bool) :
    stripDashFrom .line fresh text = [] := by
  by_contra hleft
  obtain ⟨body, rest, -, rfl⟩ := exists_of_stripDashFrom_line hleft
  exact h (by simp)

/-- Where no line starts, block comments are all there is to delete. -/
theorem stripDashFrom_code_of_not_mem {text : Text} (h : .char '\n' ∉ text) :
    stripDashFrom .code false text = stripBlocks text := by
  -- in code and in a block alike: where no line ends, no line starts with dashes either
  have key : ∀ inside : Bool, stripDashFrom (if inside then .block else .code) false text =
      stripBlocksFrom inside text := by
    intro inside
    fun_induction stripBlocksFrom inside text with
    | case1 inside => exact stripDashFrom_nil _ _
    | case2 rest ih =>
      exact (stripDashFrom_code_block false rest).trans
        (ih fun hmem => h (List.mem_cons_of_mem _ (List.mem_cons_of_mem _ hmem)))
    | case3 g rest hcode ih =>
      have hfeed : g ≠ .char '\n' := fun hg => h (by simp [hg])
      have hcopy : ¬ (g = .char '/' ∧ rest.head? = some (.char '*')) := by
        rintro ⟨rfl, hstar⟩
        obtain ⟨rest, rfl⟩ := List.head?_eq_some_iff.1 hstar
        exact hcode rest rfl rfl
      have hread := stripDashFrom_code_copy (Bool.false_and (opensDashLine (g :: rest))) hcopy
      rw [decide_eq_false hfeed] at hread
      exact hread.trans (congrArg (g :: ·) (ih fun hmem => h (List.mem_cons_of_mem _ hmem)))
    | case4 rest ih =>
      exact ih fun hmem => h (List.mem_cons_of_mem _ (List.mem_cons_of_mem _ hmem))
    | case5 g rest hblock ih =>
      have hinside : ¬ (g = .char '*' ∧ rest.head? = some (.char '/')) := by
        rintro ⟨rfl, hslash⟩
        obtain ⟨rest, rfl⟩ := List.head?_eq_some_iff.1 hslash
        exact hblock rest rfl rfl
      have hread := stripDashFrom_block_cons false g rest
      rw [if_neg hinside] at hread
      exact hread.trans (ih fun hmem => h (List.mem_cons_of_mem _ hmem))
  exact key false

end Comment

end Minifier
