import Minifier.Proofs.Comment.Dashes
import Minifier.Proofs.Comment.Markers
import Minifier.Proofs.Text.Occurrence

/-!
# Texts cut at their comments

`Cut` says, without reference to a reader, how comments divide a text into code: where a comment
opens, how far it reaches, and what is left between the comments. Every text can be cut
(`exists_slashCut`, `exists_dashCut`), and deleting its comments puts the pieces of code together
(`flatten_of_slashCut`, `flatten_of_dashCut`, `flatten_of_blockCut`).

A cut is never a choice (`Cut.unique`): a comment that opens has to be cut out, and there is one
place only that it reaches to. So every text has exactly one cut of each kind
(`exists_slashCut_iff`, `exists_dashCut_iff`, `exists_blockCut_iff`).
-/

set_option autoImplicit false

namespace Minifier

namespace Comment

/-! ## Pieces of code -/

/-- A text that is cut at its comments into pieces of code. `opens` says where a line comment opens,
and `fresh` that a line starts here. A line comment reaches to the end of its line; a block comment
reaches to the first marker that ends it, and to the end of the text if there is none. -/
inductive Cut (opens : Bool → Text → Bool) : Bool → Text → List Text → Prop
  | nil {fresh : Bool} : Cut opens fresh [] [[]]
  | copy {fresh : Bool} {g : Glyph} {rest code : Text} {codes : List Text} :
      opens fresh (g :: rest) = false → ¬ Text.ofString "/*" <+: g :: rest →
      Cut opens (g = .char '\n') rest (code :: codes) →
      Cut opens fresh (g :: rest) ((g :: code) :: codes)
  | line {fresh : Bool} {body rest : Text} {codes : List Text} :
      opens fresh (body ++ rest) = true → .char '\n' ∉ body →
      (∀ g ∈ rest.head?, g = .char '\n') → Cut opens false rest codes →
      Cut opens fresh (body ++ rest) ([] :: codes)
  | block {fresh : Bool} {body rest : Text} {codes : List Text} :
      ¬ Text.ofString "*/" <:+: body → Cut opens false rest codes →
      Cut opens fresh (.char '/' :: .char '*' :: (body ++ .char '*' :: .char '/' :: rest))
        ([] :: codes)
  | openBlock {fresh : Bool} {body : Text} : ¬ Text.ofString "*/" <:+: body →
      Cut opens fresh (.char '/' :: .char '*' :: body) [[], []]

/-- Slash comments open with two slashes. -/
def opensSlashAt (_ : Bool) (text : Text) : Bool :=
  (Text.ofString "//").isPrefixOf text

/-- Dash comments open where a line starts, behind spaces and tabs, with two dashes. -/
def opensDashAt (fresh : Bool) (text : Text) : Bool :=
  fresh && opensDashLine text

/-- No line comment opens anywhere. -/
def opensNowhere (_ : Bool) (_ : Text) : Bool :=
  false

/-- A text that is cut at its slash and block comments. -/
def SlashCut (text : Text) (codes : List Text) : Prop :=
  Cut opensSlashAt true text codes

/-- A text that is cut at its dash and block comments. -/
def DashCut (text : Text) (codes : List Text) : Prop :=
  Cut opensDashAt true text codes

/-- A text that is cut at its block comments. -/
def BlockCut (text : Text) (codes : List Text) : Prop :=
  Cut opensNowhere true text codes

theorem startsOnce_blockEnd : StartsOnce (Text.ofString "*/") :=
  ⟨.char '*', [.char '/'], rfl, by decide⟩

theorem blockMarker_prefix_iff (g : Glyph) (rest : Text) :
    Text.ofString "/*" <+: g :: rest ↔ g = .char '/' ∧ rest.head? = some (.char '*') := by
  rw [ofString_blockMarker, List.cons_prefix_cons]
  cases rest <;> simp [eq_comm]

/-! ## Lines -/

/-- Whether a glyph belongs to a line. -/
def inLine (g : Glyph) : Bool :=
  g != .char '\n'

theorem not_mem_takeWhile_inLine (text : Text) : .char '\n' ∉ text.takeWhile inLine := by
  intro hmem
  have hin := List.all_eq_true.1 List.all_takeWhile _ hmem
  simp [inLine] at hin

theorem head_dropWhile_inLine (text : Text) :
    ∀ g ∈ (text.dropWhile inLine).head?, g = .char '\n' := by
  intro g hg
  have hout := List.head?_dropWhile_not inLine text
  rw [Option.mem_def] at hg
  simpa [hg, inLine] using hout

/-- The line that a text starts with is all that comes before the next line feed. -/
theorem takeWhile_inLine_append {body rest : Text} (hbody : .char '\n' ∉ body)
    (hrest : ∀ g ∈ rest.head?, g = .char '\n') : (body ++ rest).takeWhile inLine = body := by
  rw [List.takeWhile_append_of_pos]
  · cases rest with
    | nil => simp
    | cons g rest => simp [inLine, hrest g rfl]
  · intro g hg
    rw [inLine, bne_iff_ne]
    rintro rfl
    exact hbody hg

/-! ## Where line comments open -/

/-- A line comment opens in its own line, and with no marker of a block comment. -/
structure OpensLines (opens : Bool → Text → Bool) : Prop where
  head : ∀ fresh text, opens fresh text = true → ∃ g ∈ text.head?, g ≠ .char '\n'
  not_block : ∀ fresh rest, opens fresh (.char '/' :: .char '*' :: rest) = false

theorem exists_of_opensSlashAt {fresh : Bool} {text : Text} (h : opensSlashAt fresh text = true) :
    ∃ rest, text = .char '/' :: .char '/' :: rest := by
  rw [opensSlashAt, List.isPrefixOf_iff_prefix, ofString_slashMarker] at h
  obtain ⟨rest, rfl⟩ := h
  exact ⟨rest, rfl⟩

/-- A dash comment opens with spaces and tabs, if any, and two dashes. -/
theorem opensDashLine_iff (text : Text) :
    opensDashLine text = true ↔
      ∃ indent rest, (∀ g ∈ indent, g = .char ' ' ∨ g = .char '\t') ∧
        text = indent ++ (Text.ofString "--" ++ rest) := by
  constructor
  · intro h
    induction text with
    | nil => exact absurd h (by decide)
    | cons g text ih =>
      rw [opensDashLine_cons] at h
      split_ifs at h with hindent
      · obtain ⟨indent, rest, hall, rfl⟩ := ih h
        exact ⟨g :: indent, rest, List.forall_mem_cons.2 ⟨hindent, hall⟩, rfl⟩
      · obtain ⟨rfl, hnext⟩ := of_decide_eq_true h
        obtain ⟨rest, rfl⟩ := List.head?_eq_some_iff.1 hnext
        exact ⟨[], rest, by simp, rfl⟩
  · rintro ⟨indent, rest, hall, rfl⟩
    induction indent with
    | nil => exact (opensDashLine_dash_iff _).2 rfl
    | cons g indent ih =>
      rw [List.forall_mem_cons] at hall
      rw [List.cons_append, opensDashLine_cons_of_indent hall.1]
      exact ih hall.2

theorem exists_of_opensDashAt {fresh : Bool} {text : Text} (h : opensDashAt fresh text = true) :
    ∃ g rest, text = g :: rest ∧ ((g = .char ' ' ∨ g = .char '\t') ∨ g = .char '-') := by
  obtain ⟨indent, rest, hall, rfl⟩ := (opensDashLine_iff text).1 (Bool.and_eq_true_iff.1 h).2
  cases indent with
  | nil => exact ⟨.char '-', .char '-' :: rest, rfl, Or.inr rfl⟩
  | cons g indent => exact ⟨g, _, rfl, Or.inl (hall g List.mem_cons_self)⟩

theorem opensLines_slash : OpensLines opensSlashAt := by
  constructor
  · intro fresh text h
    obtain ⟨rest, rfl⟩ := exists_of_opensSlashAt h
    exact ⟨.char '/', rfl, by decide⟩
  · intro fresh rest
    rfl

theorem opensLines_dash : OpensLines opensDashAt := by
  constructor
  · intro fresh text h
    obtain ⟨g, rest, rfl, hg⟩ := exists_of_opensDashAt h
    refine ⟨g, rfl, ?_⟩
    rintro rfl
    exact absurd hg (by decide)
  · intro fresh rest
    cases fresh <;> rfl

theorem opensLines_nowhere : OpensLines opensNowhere := by
  constructor
  · intro _ _ h
    exact absurd h Bool.false_ne_true
  · intro _ _
    rfl

variable {opens : Bool → Text → Bool} {fresh : Bool} {text : Text} {codes : List Text}

theorem OpensLines.nil (h : OpensLines opens) (fresh : Bool) : opens fresh [] = false := by
  by_contra hopens
  rw [Bool.not_eq_false] at hopens
  obtain ⟨g, hg, -⟩ := h.head fresh [] hopens
  cases hg

/-! ## Every text can be cut -/

/-- A text has a cut, whatever opens line comments. -/
theorem exists_cut (hlines : OpensLines opens) (fresh : Bool) (text : Text) :
    ∃ codes, Cut opens fresh text codes ∧ codes ≠ [] := by
  -- on the length of the text: a comment takes more than one glyph of it at once
  induction hlength : text.length using Nat.strong_induction_on generalizing fresh text with
  | _ n ih =>
    cases text with
    | nil => exact ⟨[[]], Cut.nil, List.cons_ne_nil _ _⟩
    | cons g rest =>
      cases hline : opens fresh (g :: rest) with
      | true =>
        -- a line opens: it is left out up to its line feed, which stays
        obtain ⟨c, hc, hfeed⟩ := hlines.head fresh (g :: rest) hline
        obtain rfl : g = c := by simpa using hc
        have hparts := List.takeWhile_append_dropWhile (p := inLine) (l := g :: rest)
        have hstart : (g :: rest).dropWhile inLine = rest.dropWhile inLine :=
          List.dropWhile_cons_of_pos (by simpa [inLine] using hfeed)
        have hshorter : ((g :: rest).dropWhile inLine).length < n := by
          have hle := (List.dropWhile_suffix (l := rest) inLine).length_le
          rw [hstart, ← hlength, List.length_cons]
          omega
        obtain ⟨codes, hcut, -⟩ := ih _ hshorter false _ rfl
        refine ⟨[] :: codes, ?_, List.cons_ne_nil _ _⟩
        rw [← hparts] at hline ⊢
        exact Cut.line hline (not_mem_takeWhile_inLine _) (head_dropWhile_inLine _) hcut
      | false =>
        by_cases hblock : g = .char '/' ∧ rest.head? = some (.char '*')
        · obtain ⟨rfl, hstar⟩ := hblock
          -- a block opens: it goes on to its first end, or to the end of the text
          obtain ⟨inside, rfl⟩ := List.head?_eq_some_iff.1 hstar
          cases hend : splitAt? (Text.ofString "*/") inside with
          | none => exact ⟨_, Cut.openBlock (splitAt?_eq_none_iff.1 hend), List.cons_ne_nil _ _⟩
          | some parts =>
            obtain ⟨body, behind⟩ := parts
            obtain ⟨rfl, hbody⟩ := (splitAt?_eq_some_iff startsOnce_blockEnd).1 hend
            have hshorter : behind.length < n := by
              rw [← hlength]
              simp only [List.length_cons, List.length_append]
              omega
            obtain ⟨codes, hcut, -⟩ := ih _ hshorter false behind rfl
            exact ⟨[] :: codes, Cut.block hbody hcut, List.cons_ne_nil _ _⟩
        · -- the glyph is code, and goes in front of the first code of the rest
          have hshorter : rest.length < n := hlength ▸ Nat.lt_succ_self rest.length
          obtain ⟨codes, hcut, hne⟩ := ih _ hshorter (g = .char '\n') rest rfl
          obtain ⟨code, codes, rfl⟩ := List.exists_cons_of_ne_nil hne
          have hmarker : ¬ Text.ofString "/*" <+: g :: rest :=
            fun hprefix => hblock ((blockMarker_prefix_iff g rest).1 hprefix)
          exact ⟨(g :: code) :: codes, Cut.copy hline hmarker hcut, List.cons_ne_nil _ _⟩

theorem exists_slashCut (text : Text) : ∃ codes, SlashCut text codes := by
  obtain ⟨codes, hcut, -⟩ := exists_cut opensLines_slash true text
  exact ⟨codes, hcut⟩

theorem exists_dashCut (text : Text) : ∃ codes, DashCut text codes := by
  obtain ⟨codes, hcut, -⟩ := exists_cut opensLines_dash true text
  exact ⟨codes, hcut⟩

/-! ## No text can be cut in two ways -/

/-- The line of a comment ends at one place only. -/
theorem line_unique {body rest body' rest' : Text} (h : body ++ rest = body' ++ rest')
    (hbody : .char '\n' ∉ body) (hrest : ∀ g ∈ rest.head?, g = .char '\n')
    (hbody' : .char '\n' ∉ body') (hrest' : ∀ g ∈ rest'.head?, g = .char '\n') :
    body = body' ∧ rest = rest' := by
  have hsame : body = body' := by
    rw [← takeWhile_inLine_append hbody hrest, h, takeWhile_inLine_append hbody' hrest']
  subst hsame
  exact ⟨rfl, List.append_cancel_left h⟩

/-- The first marker that ends a block comment is at one place only. -/
theorem block_unique {body rest body' rest' : Text}
    (h : body ++ .char '*' :: .char '/' :: rest = body' ++ .char '*' :: .char '/' :: rest')
    (hbody : ¬ Text.ofString "*/" <:+: body) (hbody' : ¬ Text.ofString "*/" <:+: body') :
    body = body' ∧ rest = rest' := by
  have hfound : splitAt? (Text.ofString "*/") (body ++ .char '*' :: .char '/' :: rest) =
      some (body, rest) :=
    (splitAt?_eq_some_iff startsOnce_blockEnd).2 ⟨rfl, hbody⟩
  have hfound' : splitAt? (Text.ofString "*/") (body ++ .char '*' :: .char '/' :: rest) =
      some (body', rest') :=
    (splitAt?_eq_some_iff startsOnce_blockEnd).2 ⟨h, hbody'⟩
  rw [hfound, Option.some.injEq, Prod.mk.injEq] at hfound'
  exact hfound'

/-- Nothing is cut out of an empty text. -/
theorem Cut.of_nil (hlines : OpensLines opens) (h : Cut opens fresh [] codes) : codes = [[]] := by
  generalize htext : ([] : Text) = text at h
  cases h with
  | nil => rfl
  | copy => cases htext
  | line hopens => simp [← htext, hlines.nil] at hopens
  | block => cases htext
  | openBlock => cases htext

/-- Where a line comment opens, the line is cut out. -/
theorem Cut.of_opens (hlines : OpensLines opens) (h : Cut opens fresh text codes)
    (hopens : opens fresh text = true) :
    ∃ body rest codes', text = body ++ rest ∧ .char '\n' ∉ body ∧
      (∀ g ∈ rest.head?, g = .char '\n') ∧ codes = [] :: codes' ∧ Cut opens false rest codes' := by
  cases h with
  | nil => simp [hlines.nil] at hopens
  | copy hcopy => simp [hcopy] at hopens
  | line _ hbody hrest hcut => exact ⟨_, _, _, rfl, hbody, hrest, rfl, hcut⟩
  | block => simp [hlines.not_block] at hopens
  | openBlock => simp [hlines.not_block] at hopens

/-- Where no comment opens, a glyph of code is copied. -/
theorem Cut.of_code {g : Glyph} {rest : Text} (h : Cut opens fresh (g :: rest) codes)
    (hopens : opens fresh (g :: rest) = false) (hblock : ¬ Text.ofString "/*" <+: g :: rest) :
    ∃ code codes', codes = (g :: code) :: codes' ∧
      Cut opens (g = .char '\n') rest (code :: codes') := by
  generalize htext : g :: rest = text at h
  cases h with
  | nil => cases htext
  | copy _ _ hcut =>
    cases htext
    exact ⟨_, _, rfl, hcut⟩
  | line hline => simp [← htext, hopens] at hline
  | block => simp [htext, ofString_blockMarker] at hblock
  | openBlock => simp [htext, ofString_blockMarker] at hblock

/-- Where a block comment opens, it is cut out up to its end, if it has one. -/
theorem Cut.of_block (hlines : OpensLines opens) {inside : Text}
    (h : Cut opens fresh (.char '/' :: .char '*' :: inside) codes) :
    (∃ body rest codes', inside = body ++ .char '*' :: .char '/' :: rest ∧
      ¬ Text.ofString "*/" <:+: body ∧ codes = [] :: codes' ∧ Cut opens false rest codes') ∨
    (¬ Text.ofString "*/" <:+: inside ∧ codes = [[], []]) := by
  generalize htext : .char '/' :: .char '*' :: inside = text at h
  cases h with
  | nil => cases htext
  | copy _ hblock => simp [← htext, ofString_blockMarker] at hblock
  | line hline => simp [← htext, hlines.not_block] at hline
  | block hbody hcut =>
    simp only [List.cons.injEq, true_and] at htext
    exact Or.inl ⟨_, _, _, htext, hbody, rfl, hcut⟩
  | openBlock hbody =>
    simp only [List.cons.injEq, true_and] at htext
    exact Or.inr ⟨htext ▸ hbody, rfl⟩

/-- A text has no two cuts. -/
theorem Cut.unique (hlines : OpensLines opens) {codes' : List Text}
    (h : Cut opens fresh text codes) (h' : Cut opens fresh text codes') : codes = codes' := by
  induction h generalizing codes' with
  | nil => exact (h'.of_nil hlines).symm
  | copy hopens hblock _ ih =>
    obtain ⟨code, others, rfl, hcut⟩ := h'.of_code hopens hblock
    obtain ⟨rfl, rfl⟩ := List.cons.inj (ih hcut)
    rfl
  | line hopens hbody hrest _ ih =>
    obtain ⟨body, rest, others, htext, hbody', hrest', rfl, hcut⟩ := h'.of_opens hlines hopens
    obtain ⟨-, rfl⟩ := line_unique htext hbody hrest hbody' hrest'
    rw [ih hcut]
  | @block _ body rest codes hbody _ ih =>
    rcases h'.of_block hlines with ⟨body', rest', others, htext, hbody', rfl, hcut⟩ | ⟨hnone, -⟩
    · obtain ⟨-, rfl⟩ := block_unique htext hbody hbody'
      rw [ih hcut]
    · exact absurd ⟨body, rest, by simp [ofString_blockEnd]⟩ hnone
  | openBlock hnone =>
    rcases h'.of_block hlines with ⟨body, rest, others, rfl, -⟩ | ⟨-, rfl⟩
    · exact absurd ⟨body, rest, by simp [ofString_blockEnd]⟩ hnone
    · rfl

/-- There is one way to cut a text. -/
theorem exists_cut_iff (hlines : OpensLines opens) (text : Text) :
    ∃ codes, ∀ codes', Cut opens true text codes' ↔ codes' = codes := by
  obtain ⟨codes, hcut, -⟩ := exists_cut hlines true text
  refine ⟨codes, ?_⟩
  intro codes'
  constructor
  · intro hcut'
    exact hcut'.unique hlines hcut
  · rintro rfl
    exact hcut

theorem exists_slashCut_iff (text : Text) :
    ∃ codes, ∀ codes', SlashCut text codes' ↔ codes' = codes :=
  exists_cut_iff opensLines_slash text

theorem exists_dashCut_iff (text : Text) :
    ∃ codes, ∀ codes', DashCut text codes' ↔ codes' = codes :=
  exists_cut_iff opensLines_dash text

theorem exists_blockCut_iff (text : Text) :
    ∃ codes, ∀ codes', BlockCut text codes' ↔ codes' = codes :=
  exists_cut_iff opensLines_nowhere text

/-! ## Slash comments -/

/-- A slash comment goes up to the end of its line. -/
theorem stripSlashFrom_line_append {body rest : Text} (h : .char '\n' ∉ body)
    (hrest : ∀ g ∈ rest.head?, g = .char '\n') :
    stripSlashFrom .line (body ++ rest) = stripSlashFrom .code rest := by
  induction body with
  | nil =>
    cases rest with
    | nil => rfl
    | cons g rest =>
      obtain rfl : g = .char '\n' := hrest g rfl
      rw [List.nil_append, stripSlashFrom_code_of_ne_slash (by decide)]
      rfl
  | cons g body ih =>
    rw [List.mem_cons, not_or] at h
    rw [List.cons_append, stripSlashFrom, if_neg (Ne.symm h.1), ih h.2]

/-! ## Deleting comments -/

/-- The two slashes that open a line comment are in its line. -/
theorem exists_body_of_opensSlashAt {fresh : Bool} {body rest : Text}
    (h : opensSlashAt fresh (body ++ rest) = true) (hrest : ∀ g ∈ rest.head?, g = .char '\n') :
    ∃ inside, body = .char '/' :: .char '/' :: inside := by
  have hslash : rest.head? ≠ some (.char '/') :=
    fun hhead => absurd (hrest _ hhead) (by decide)
  obtain ⟨behind, h⟩ := exists_of_opensSlashAt h
  match body with
  | [] => simp_all
  | [c] => simp_all
  | c :: d :: body =>
    simp only [List.cons_append, List.cons.injEq] at h
    obtain ⟨rfl, rfl, -⟩ := h
    exact ⟨body, rfl⟩

/-- Deleting slash comments puts the pieces of code together. -/
theorem flatten_of_slashCut {fresh : Bool} {text : Text} {codes : List Text}
    (h : Cut opensSlashAt fresh text codes) : stripSlashFrom .code text = codes.flatten := by
  induction h with
  | nil => rfl
  | @copy fresh g rest code codes hopens hblock _ ih =>
    have hnone : ∀ b ∈ rest.head?, ¬ Opens g b := by
      rintro b hb ⟨rfl, rfl | rfl⟩
      · obtain ⟨rest, rfl⟩ := List.head?_eq_some_iff.1 hb
        exact Bool.false_ne_true (hopens.symm.trans rfl)
      · exact hblock ((blockMarker_prefix_iff _ rest).2 ⟨rfl, hb⟩)
    rw [stripSlashFrom_code_of_not_opens hnone, ih]
    rfl
  | @line fresh body rest codes hopens hbody hrest _ ih =>
    obtain ⟨inside, rfl⟩ := exists_body_of_opensSlashAt hopens hrest
    have hinside : Glyph.char '\n' ∉ inside := by
      intro hmem
      exact hbody (by simp [hmem])
    have hline := stripSlashFrom_line_append hinside hrest
    rw [List.flatten_cons, List.nil_append, ← ih, ← hline]
    rfl
  | @block fresh body rest codes hbody _ ih =>
    have hblock := readsBlock_stripSlashFrom.append hbody rest
    rw [List.flatten_cons, List.nil_append, ← ih, ← hblock]
    rfl
  | openBlock hbody => exact readsBlock_stripSlashFrom.of_not_infix hbody

/-- A dash comment goes up to the end of its line, and is over there. -/
theorem stripDashFrom_line_end {body rest : Text} (h : .char '\n' ∉ body)
    (hrest : ∀ g ∈ rest.head?, g = .char '\n') (fresh : Bool) :
    stripDashFrom .line fresh (body ++ rest) = stripDashFrom .code false rest := by
  cases rest with
  | nil =>
    rw [List.append_nil, stripDashFrom_nil]
    by_contra hleft
    obtain ⟨inside, behind, -, rfl⟩ := exists_of_stripDashFrom_line hleft
    exact h (by simp)
  | cons g rest =>
    obtain rfl : g = .char '\n' := hrest g rfl
    rw [stripDashFrom_line_append h, stripDashFrom_code_copy (Bool.false_and _) (by simp)]
    rfl

/-- Deleting dash comments puts the pieces of code together. -/
theorem flatten_of_dashCut {fresh : Bool} {text : Text} {codes : List Text}
    (h : Cut opensDashAt fresh text codes) : stripDashFrom .code fresh text = codes.flatten := by
  induction h with
  | nil => rfl
  | @copy fresh g rest code codes hopens hblock _ ih =>
    have hmarker : ¬ (g = .char '/' ∧ rest.head? = some (.char '*')) :=
      fun hmarker => hblock ((blockMarker_prefix_iff g rest).2 hmarker)
    rw [stripDashFrom_code_copy hopens hmarker, ih]
    rfl
  | @line fresh body rest codes hopens hbody hrest _ ih =>
    rw [List.flatten_cons, List.nil_append, ← ih]
    cases body with
    | nil =>
      -- a line comment does not open at the end of its line
      have hline : opensDashLine rest = true := (Bool.and_eq_true_iff.1 hopens).2
      cases rest with
      | nil => exact absurd hline (by decide)
      | cons g rest =>
        obtain rfl : g = .char '\n' := hrest g rfl
        exact absurd (indent_or_dash_of_opensDashLine hline) (by decide)
    | cons g body =>
      have hbody' : Glyph.char '\n' ∉ body := fun hmem => hbody (List.mem_cons_of_mem g hmem)
      have hcomment : (fresh && opensDashLine (g :: (body ++ rest))) = true := hopens
      rw [List.cons_append, stripDashFrom_code_of_opens hcomment,
        stripDashFrom_line_end hbody' hrest]
  | block hbody _ ih =>
    rw [List.flatten_cons, List.nil_append, ← ih, stripDashFrom_code_block,
      stripDashFrom_block_append hbody]
  | openBlock hbody =>
    rw [stripDashFrom_code_block]
    exact readsBlock_stripDashFrom.of_not_infix hbody

/-- Deleting block comments puts the pieces of code together. -/
theorem flatten_of_blockCut {fresh : Bool} {text : Text} {codes : List Text}
    (h : Cut opensNowhere fresh text codes) : stripBlocksFrom false text = codes.flatten := by
  induction h with
  | nil => rfl
  | @copy fresh g rest code codes _ hblock _ ih =>
    have hmarker : ¬ (g = .char '/' ∧ rest.head? = some (.char '*')) :=
      fun hmarker => hblock ((blockMarker_prefix_iff g rest).2 hmarker)
    rw [stripBlocksFrom_false_copy hmarker, ih]
    rfl
  | line hopens => exact Bool.noConfusion hopens
  | @block fresh body rest codes hbody _ ih =>
    have hblock := readsBlock_stripBlocksFrom.append hbody rest
    rw [List.flatten_cons, List.nil_append, ← ih, ← hblock]
    rfl
  | openBlock hbody => exact readsBlock_stripBlocksFrom.of_not_infix hbody

end Comment

end Minifier
