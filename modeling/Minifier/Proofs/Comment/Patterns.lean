import Minifier.Pattern
import Minifier.Proofs.Comment.Cut
import Minifier.Proofs.Pattern.Scan

/-!
# Comments as patterns

Comments can be written as patterns: a line comment goes on to the end of its line, and a block
comment goes on lazily until it ends or the text does. Deleting the matches of such a pattern from
left to right cuts the text at its comments (`exists_cut_of_scan`), so the patterns of the three
kinds of comments delete what the readers delete (`slashPattern_deletes`, `dashPattern_deletes`,
`blockPattern_deletes`).

However the matcher backtracks, it finds one match at a place or none. The body of a block comment
grows glyph by glyph up to the first place where the comment may end (`fewest_blockEnd`). The spaces
and tabs before a dash comment are all taken, since the dashes stand behind all of them or nowhere
(`run_indented_line`).
-/

set_option autoImplicit false

namespace Minifier

namespace Comment

open Pattern

/-! ## What comments take -/

/-- What stands in a block comment, with the marker that ends it, from behind the opening one. -/
def blockBody (inside : Text) : Text :=
  match splitAt? (Text.ofString "*/") inside with
  | some (body, _) => body ++ Text.ofString "*/"
  | none => inside

/-- The block comment that a text starts with. -/
def blockAt (text : Text) : Option Text :=
  (dropStart? (Text.ofString "/*") text).map fun inside => Text.ofString "/*" ++ blockBody inside

/-- The line comment that a text starts with. -/
def lineAt (opens : Bool → Text → Bool) (before text : Text) : Option Text :=
  if opens (startsLine before) text then some (text.takeWhile inLine) else none

/-- The comment that a text starts with. -/
def commentAt (opens : Bool → Text → Bool) (before text : Text) : Option Text :=
  (lineAt opens before text).or (blockAt text)

variable {opens : Bool → Text → Bool} {before text kept body rest : Text}

theorem blockBody_cons (g : Glyph) (rest : Text) :
    blockBody (g :: rest) =
      if (Text.ofString "*/").isPrefixOf (g :: rest) then Text.ofString "*/"
      else g :: blockBody rest := by
  rw [blockBody, splitAt?]
  cases hend : dropStart? (Text.ofString "*/") (g :: rest) with
  | some behind =>
    have hprefix : (Text.ofString "*/").isPrefixOf (g :: rest) = true := by
      rw [List.isPrefixOf_iff_prefix]
      exact ⟨behind, (dropStart?_eq_some_iff.1 hend).symm⟩
    rw [if_pos hprefix]
    rfl
  | none =>
    have hprefix : ¬ (Text.ofString "*/").isPrefixOf (g :: rest) = true := by
      rw [List.isPrefixOf_iff_prefix]
      exact dropStart?_eq_none_iff.1 hend
    rw [if_neg hprefix, blockBody]
    cases splitAt? (Text.ofString "*/") rest <;> rfl

/-- A block comment ends with the first marker that ends it, or with the text. -/
theorem blockBody_cases (inside : Text) :
    (∃ body rest, inside = body ++ .char '*' :: .char '/' :: rest ∧
      ¬ Text.ofString "*/" <:+: body ∧ blockBody inside = body ++ Text.ofString "*/") ∨
    (¬ Text.ofString "*/" <:+: inside ∧ blockBody inside = inside) := by
  rw [blockBody]
  cases hend : splitAt? (Text.ofString "*/") inside with
  | none => exact Or.inr ⟨splitAt?_eq_none_iff.1 hend, rfl⟩
  | some parts =>
    obtain ⟨body, rest⟩ := parts
    obtain ⟨hparts, hbody⟩ := (splitAt?_eq_some_iff startsOnce_blockEnd).1 hend
    exact Or.inl ⟨body, rest, hparts, hbody, rfl⟩

theorem blockAt_eq_some_iff :
    blockAt text = some body ↔
      ∃ inside, text = .char '/' :: .char '*' :: inside ∧
        body = .char '/' :: .char '*' :: blockBody inside := by
  rw [blockAt, Option.map_eq_some_iff]
  constructor
  · rintro ⟨inside, hinside, rfl⟩
    exact ⟨inside, dropStart?_eq_some_iff.1 hinside, rfl⟩
  · rintro ⟨inside, rfl, rfl⟩
    exact ⟨inside, dropStart?_eq_some_iff.2 rfl, rfl⟩

theorem blockAt_isPrefix (h : blockAt text = some body) : body ≠ [] ∧ body <+: text := by
  obtain ⟨inside, rfl, rfl⟩ := blockAt_eq_some_iff.1 h
  refine ⟨List.cons_ne_nil _ _, ?_⟩
  rw [List.prefix_cons_inj, List.prefix_cons_inj]
  rcases blockBody_cases inside with ⟨body, rest, rfl, -, hbody⟩ | ⟨-, hbody⟩
  · rw [hbody]
    exact ⟨rest, by simp [ofString_blockEnd]⟩
  · rw [hbody]

theorem lineAt_eq_some_iff :
    lineAt opens before text = some body ↔
      opens (startsLine before) text = true ∧ text.takeWhile inLine = body := by
  rw [lineAt]
  split_ifs with hopens
  · simp [hopens]
  · simp [hopens]

theorem lineAt_isPrefix (hlines : OpensLines opens) (h : lineAt opens before text = some body) :
    body ≠ [] ∧ body <+: text := by
  obtain ⟨hopens, rfl⟩ := lineAt_eq_some_iff.1 h
  obtain ⟨g, hg, hline⟩ := hlines.head _ _ hopens
  obtain ⟨rest, rfl⟩ := List.head?_eq_some_iff.1 hg
  refine ⟨?_, List.takeWhile_prefix inLine⟩
  rw [List.takeWhile_cons_of_pos (by simpa [inLine] using hline)]
  exact List.cons_ne_nil _ _

/-- A line comment takes all of its line. -/
theorem of_lineAt_append (h : lineAt opens before (body ++ rest) = some body) :
    opens (startsLine before) (body ++ rest) = true ∧ .char '\n' ∉ body ∧
      ∀ g ∈ rest.head?, g = .char '\n' := by
  obtain ⟨hopens, hbody⟩ := lineAt_eq_some_iff.1 h
  have hrest : (body ++ rest).dropWhile inLine = rest := by
    have hparts := List.takeWhile_append_dropWhile (p := inLine) (l := body ++ rest)
    rw [hbody] at hparts
    exact List.append_cancel_left hparts
  refine ⟨hopens, ?_, ?_⟩
  · rw [← hbody]
    exact not_mem_takeWhile_inLine (body ++ rest)
  · rw [← hrest]
    exact head_dropWhile_inLine (body ++ rest)

/-- A block comment takes what ends with a marker, or the rest of the text. -/
theorem of_blockAt_append (h : blockAt (body ++ rest) = some body) :
    ∃ inside, ¬ Text.ofString "*/" <:+: inside ∧
      (body = .char '/' :: .char '*' :: (inside ++ [.char '*', .char '/']) ∨
        body = .char '/' :: .char '*' :: inside ∧ rest = []) := by
  obtain ⟨inside, hinside, rfl⟩ := blockAt_eq_some_iff.1 h
  rcases blockBody_cases inside with ⟨front, behind, rfl, hend, hbody⟩ | ⟨hend, hbody⟩
  · refine ⟨front, hend, Or.inl ?_⟩
    rw [hbody, ofString_blockEnd]
  · rw [hbody] at hinside ⊢
    exact ⟨inside, hend, Or.inr ⟨rfl, by simpa using hinside⟩⟩

/-! ## Scans cut texts -/

/-- Behind a text that holds no line feed, no line starts. -/
theorem startsLine_reverse_append (hne : body ≠ []) (hbody : .char '\n' ∉ body) (before : Text) :
    startsLine (body.reverse ++ before) = false := by
  obtain ⟨front, g, rfl⟩ := (List.eq_nil_or_concat' body).resolve_left hne
  have hg : g ≠ .char '\n' := by
    rintro rfl
    exact hbody (by simp)
  rw [List.reverse_append, List.reverse_singleton, List.singleton_append, List.cons_append,
    startsLine_cons, decide_eq_false hg]

/-- Taking comments from a text, from left to right, cuts it at its comments. -/
theorem exists_cut_of_scan (hlines : OpensLines opens)
    (h : Scan (commentAt opens) before text kept) :
    ∃ codes, Cut opens (startsLine before) text codes ∧ codes ≠ [] ∧ codes.flatten = kept := by
  induction h with
  | nil => exact ⟨[[]], Cut.nil, List.cons_ne_nil _ _, rfl⟩
  | @skip before rest kept g hnone _ ih =>
    obtain ⟨codes, hcut, hne, hkept⟩ := ih
    obtain ⟨code, codes, rfl⟩ := List.exists_cons_of_ne_nil hne
    rw [startsLine_cons] at hcut
    obtain ⟨hline, hblock⟩ := Option.or_eq_none_iff.1 hnone
    have hcloses : opens (startsLine before) (g :: rest) = false := by
      rw [lineAt] at hline
      split_ifs at hline with hopens
      simpa using hopens
    have hmarker : ¬ Text.ofString "/*" <+: g :: rest := by
      rw [blockAt, Option.map_eq_none_iff] at hblock
      exact dropStart?_eq_none_iff.1 hblock
    refine ⟨(g :: code) :: codes, Cut.copy hcloses hmarker hcut, List.cons_ne_nil _ _, ?_⟩
    rw [← hkept]
    rfl
  | @hit before body rest kept htaken _ ih =>
    obtain ⟨codes, hcut, hne, hkept⟩ := ih
    rcases Option.or_eq_some_iff.1 htaken with hline | ⟨-, hblock⟩
    · obtain ⟨hopens, hbody, hrest⟩ := of_lineAt_append hline
      rw [startsLine_reverse_append (lineAt_isPrefix hlines hline).1 hbody] at hcut
      exact ⟨[] :: codes, Cut.line hopens hbody hrest hcut, List.cons_ne_nil _ _, hkept⟩
    · obtain ⟨inside, hend, rfl | ⟨rfl, rfl⟩⟩ := of_blockAt_append hblock
      · -- behind the marker that ends the comment no line starts
        have hfresh : startsLine
            ((.char '/' :: .char '*' :: (inside ++ [.char '*', .char '/'])).reverse ++ before) =
              false := by
          simp [startsLine_cons]
        rw [hfresh] at hcut
        refine ⟨[] :: codes, ?_, List.cons_ne_nil _ _, hkept⟩
        rw [List.cons_append, List.cons_append, List.append_assoc]
        exact Cut.block hend hcut
      · obtain rfl := hcut.of_nil hlines
        refine ⟨[[], []], ?_, List.cons_ne_nil _ _, hkept⟩
        rw [List.append_nil]
        exact Cut.openBlock hend

/-- A node that takes comments deletes them. -/
theorem deleteAll_of_takes (hlines : OpensLines opens) {node : Node}
    (h : node.Takes (commentAt opens)) {codes : List Text} (hcut : Cut opens true text codes) :
    node.deleteAll text = codes.flatten := by
  obtain ⟨codes', hcut', -, hkept⟩ := exists_cut_of_scan hlines (h.scan_deleteAll text)
  rw [← hkept, hcut.unique hlines hcut']

/-! ## Block comments -/

/-- What a block comment ends with: its marker, or the end of the text. -/
def blockEnd : Node :=
  .alt (.seq (.one (.only 42)) (.one (.only 47))) (.place .textEnd)

/-- Block comments. -/
def blockNode : Node :=
  .spelled "/*".toList (.seq (.several .all 0 none .lazy) blockEnd)

variable {next : Continuation} {s : Cursor}

/-- A block comment ends with its marker or with the text, if what is to come is content with
that. -/
theorem run_blockEnd (hnext : ∀ e : Cursor, s.index ≤ e.index → next e = some e) :
    blockEnd.run next s =
      if (Text.ofString "*/").isPrefixOf s.rest then some (s.behind (Text.ofString "*/"))
      else if s.rest.isEmpty then some s else none := by
  have hmarker : (Node.spelled "*/".toList .empty).run next s =
      if (Text.ofString "*/").isPrefixOf s.rest then next (s.behind (Text.ofString "*/"))
      else none :=
    run_spelled "*/".toList .empty next s
  have hbehind : next (s.behind (Text.ofString "*/")) = some (s.behind (Text.ofString "*/")) :=
    hnext _ (Nat.le_add_right _ _)
  have hplace : (Node.place .textEnd).run next s = if s.rest.isEmpty then some s else none := by
    rw [Node.run_place, hnext s (Nat.le_refl _)]
    rfl
  show ((Node.spelled "*/".toList .empty).run next s).orElse
    (fun _ => (Node.place .textEnd).run next s) = _
  rw [hmarker, hbehind, hplace]
  split_ifs <;> rfl

/-- The body of a block comment grows up to the first place where the comment may end. -/
theorem fewest_blockEnd {limit : Nat} (hlimit : s.rest.length ≤ limit)
    (hnext : ∀ e : Cursor, s.index ≤ e.index → next e = some e) :
    Cursor.fewest .all (fun e => blockEnd.run next e) limit s =
      some (s.behind (blockBody s.rest)) := by
  induction limit generalizing s with
  | zero =>
    have hnil : s.rest = [] := List.length_eq_zero_iff.1 (Nat.le_zero.1 hlimit)
    show blockEnd.run next s = _
    rw [run_blockEnd hnext, hnil]
    rfl
  | succ limit ih =>
    show (blockEnd.run next s).orElse (fun _ => (s.step? .all).bind
      (Cursor.fewest .all (fun e => blockEnd.run next e) limit)) = _
    rw [run_blockEnd hnext]
    cases hrest : s.rest with
    | nil => rfl
    | cons g rest =>
      have hstep : s.step? .all = some (s.past g rest) := by
        simp [Cursor.step?, hrest, GlyphClass.contains_all]
      have hshorter : (s.past g rest).rest.length ≤ limit := by
        rw [hrest, List.length_cons] at hlimit
        exact Nat.le_of_succ_le_succ hlimit
      have hlater : ∀ e : Cursor, (s.past g rest).index ≤ e.index → next e = some e :=
        fun e he => hnext e (Nat.le_of_succ_le he)
      rw [hstep, Option.bind_some, ih hshorter hlater, blockBody_cons, List.isEmpty_cons,
        if_neg Bool.false_ne_true]
      -- the body ends here, or it goes on with this glyph
      split_ifs with hend
      · rfl
      · exact congrArg some (Cursor.behind_past g rest (blockBody rest) hrest)

theorem blockNode_takes : blockNode.Takes fun _ => blockAt := by
  constructor
  · intro next s hleft hnext
    rw [blockNode, run_spelled]
    cases hopens : dropStart? (Text.ofString "/*") s.rest with
    | none =>
      have hprefix : ¬ (Text.ofString "/*").isPrefixOf s.rest = true := by
        rw [List.isPrefixOf_iff_prefix]
        exact dropStart?_eq_none_iff.1 hopens
      rw [blockAt, hopens]
      exact if_neg hprefix
    | some inside =>
      have hrest := dropStart?_eq_some_iff.1 hopens
      have hprefix : (Text.ofString "/*").isPrefixOf s.rest = true := by
        rw [List.isPrefixOf_iff_prefix, hrest]
        exact List.prefix_append _ _
      have hlater : ∀ e : Cursor, (s.behind (Text.ofString "/*")).index ≤ e.index →
          next e = some e :=
        fun e he => hnext e (Nat.lt_of_lt_of_le (Nat.lt_add_of_pos_right Nat.two_pos) he)
      have hbody := fewest_blockEnd (Cursor.rest_behind_le hleft (Text.ofString "/*")) hlater
      rw [Cursor.rest_behind hrest, Cursor.behind_behind] at hbody
      rw [blockAt, hopens, Option.map_some, Option.map_some, ← hbody]
      exact if_pos hprefix
  · intro before rest body hbody
    exact blockAt_isPrefix hbody

/-! ## Line comments -/

/-- What follows in a line. -/
def lineNode : Node :=
  .several (.allBut [.range 10 10]) 0 none .greedy

theorem firstOf_allBut (text : Text) :
    (GlyphClass.allBut [.range 10 10]).firstOf text = text.takeWhile inLine := by
  have hcontains : ∀ g : Glyph, (GlyphClass.allBut [.range 10 10]).contains g.code = inLine g := by
    intro g
    have hcontains := GlyphClass.contains_allBut '\n' g
    rwa [decide_not] at hcontains
  rw [GlyphClass.firstOf]
  simp only [hcontains]

/-- A line comment that is opened by a tag goes on to the end of its line. -/
theorem run_spelled_line {tag : List Char} (htag : '\n' ∉ tag)
    (hleft : s.rest.length ≤ s.left) (hne : tag ≠ [])
    (hnext : ∀ e : Cursor, s.index < e.index → next e = some e) :
    (Node.spelled tag lineNode).run next s =
      if (tag.map Glyph.char).isPrefixOf s.rest then some (s.behind (s.rest.takeWhile inLine))
      else none := by
  rw [run_spelled]
  split_ifs with hprefix
  · rw [List.isPrefixOf_iff_prefix] at hprefix
    obtain ⟨rest, hrest⟩ := hprefix
    -- the tag holds no line feed, so the line begins with it and goes on behind it
    have hline : s.rest.takeWhile inLine = tag.map Glyph.char ++ rest.takeWhile inLine := by
      rw [← hrest, List.takeWhile_append_of_pos]
      intro g hg
      obtain ⟨c, hc, rfl⟩ := List.mem_map.1 hg
      rw [inLine, bne_iff_ne]
      intro h
      obtain rfl := Glyph.char.inj h
      exact htag hc
    have hlater : next (s.behind (s.rest.takeWhile inLine)) =
        some (s.behind (s.rest.takeWhile inLine)) := by
      apply hnext
      have hlength : 0 < tag.length := List.length_pos_iff.2 hne
      rw [hline, Cursor.index_behind, List.length_append, List.length_map]
      omega
    apply run_greedy_of_eq_some (Cursor.rest_behind_le hleft _)
    rw [Cursor.rest_behind hrest.symm, firstOf_allBut, Cursor.behind_behind, ← hline]
    exact hlater
  · rfl

/-- Slash and block comments. -/
def slashNode : Node :=
  .alt blockNode (.spelled "//".toList lineNode)

theorem slashNode_takes : slashNode.Takes (commentAt opensSlashAt) := by
  have hline : (Node.spelled "//".toList lineNode).Takes (lineAt opensSlashAt) := by
    constructor
    · intro next s hleft hnext
      have hopens : ("//".toList.map Glyph.char).isPrefixOf s.rest =
          opensSlashAt (startsLine s.before) s.rest := rfl
      rw [run_spelled_line (by decide) hleft (by decide) hnext, lineAt, hopens]
      split_ifs <;> rfl
    · exact lineAt_isPrefix opensLines_slash
  -- the two kinds of comments open with different markers
  have hsame : commentAt opensSlashAt = fun before text =>
      (blockAt text).or (lineAt opensSlashAt before text) := by
    funext before text
    rw [commentAt]
    cases hline : lineAt opensSlashAt before text with
    | none => simp
    | some body =>
      obtain ⟨rest, rfl⟩ := exists_of_opensSlashAt (lineAt_eq_some_iff.1 hline).1
      rfl
  rw [hsame]
  exact blockNode_takes.alt hline

/-- Whether a dash comment may start with a glyph. -/
def isIndent (g : Glyph) : Bool :=
  g = .char ' ' || g = .char '\t'

/-- The class of the glyphs that a dash comment may start with. -/
def indentClass : GlyphClass :=
  ⟨false, [.range 32 32, .range 9 9], .exact, false⟩

theorem contains_indentClass (g : Glyph) : indentClass.contains g.code = isIndent g := by
  have hspace := SetItem.contains_range ' ' g
  have htab := SetItem.contains_range '\t' g
  simp only [Char.reduceToNat] at hspace htab
  simp [GlyphClass.contains, indentClass, hspace, htab, isIndent]

/-- A dash comment opens with two dashes behind all spaces and tabs. -/
theorem opensDashLine_eq (text : Text) :
    opensDashLine text = (Text.ofString "--").isPrefixOf (text.dropWhile isIndent) := by
  induction text with
  | nil => rfl
  | cons g rest ih =>
    rw [opensDashLine_cons]
    split_ifs with hindent
    · rw [List.dropWhile_cons_of_pos (by simpa [isIndent] using hindent), ih]
    · rw [List.dropWhile_cons_of_neg (by simpa [isIndent] using hindent)]
      rw [Bool.eq_iff_iff, decide_eq_true_eq, List.isPrefixOf_iff_prefix, ofString_dashes,
        List.cons_prefix_cons]
      cases rest <;> simp [eq_comm]

/-- Dash and block comments. -/
def dashNode : Node :=
  .alt (.seq (.place .lineStart) (.seq (.several indentClass 0 none .greedy)
    (.spelled "--".toList lineNode))) blockNode

/-- Spaces and tabs give nothing back to the dashes behind them. -/
theorem run_indented_line (hleft : s.rest.length ≤ s.left)
    (hnext : ∀ e : Cursor, s.index < e.index → next e = some e) :
    (Node.several indentClass 0 none .greedy).run
        (fun e => (Node.spelled "--".toList lineNode).run next e) s =
      if opensDashLine s.rest then some (s.behind (s.rest.takeWhile inLine)) else none := by
  have hfirst : indentClass.firstOf s.rest = s.rest.takeWhile isIndent := by
    rw [GlyphClass.firstOf]
    simp only [contains_indentClass]
  -- indentation holds no line feed, so the line begins with it
  have hline : s.rest.takeWhile inLine =
      s.rest.takeWhile isIndent ++ (s.rest.dropWhile isIndent).takeWhile inLine := by
    conv_lhs => rw [← List.takeWhile_append_dropWhile (p := isIndent) (l := s.rest)]
    apply List.takeWhile_append_of_pos
    intro g hg
    have hindent : isIndent g = true := List.all_eq_true.1 List.all_takeWhile g hg
    rw [inLine, bne_iff_ne]
    rintro rfl
    exact absurd hindent (by decide)
  have hlater : ∀ e : Cursor, (s.behind (s.rest.takeWhile isIndent)).index < e.index →
      next e = some e :=
    fun e he => hnext e (Nat.lt_of_le_of_lt (Nat.le_add_right _ _) he)
  show (Node.several indentClass 0 none .greedy).run
    (fun e => (Node.spelled ['-', '-'] lineNode).run next e) s = _
  rw [run_greedy_spelled (by decide) ['-'] hleft, hfirst,
    run_spelled_line (by decide) (Cursor.rest_behind_le hleft _) (by decide) hlater,
    Cursor.rest_behind_takeWhile, Cursor.behind_behind, ← hline, opensDashLine_eq]
  rfl

theorem dashNode_takes : dashNode.Takes (commentAt opensDashAt) := by
  have hindented : (Node.seq (.several indentClass 0 none .greedy)
      (.spelled "--".toList lineNode)).Takes fun _ text =>
        if opensDashLine text then some (text.takeWhile inLine) else none := by
    constructor
    · intro next s hleft hnext
      show (Node.several indentClass 0 none .greedy).run
        (fun e => (Node.spelled "--".toList lineNode).run next e) s = _
      rw [run_indented_line hleft hnext]
      split_ifs <;> rfl
    · intro before text body hbody
      have hline : lineAt opensDashAt [] text = some body := hbody
      exact lineAt_isPrefix opensLines_dash hline
  have hline : (fun before text => if startsLine before then
      if opensDashLine text then some (text.takeWhile inLine) else none
      else none) = lineAt opensDashAt := by
    funext before text
    rw [lineAt, opensDashAt]
    cases startsLine before <;> rfl
  have htakes := hindented.lineStart
  rw [hline] at htakes
  exact htakes.alt blockNode_takes

/-! ## The patterns -/

/-- The pattern of block comments. An open one takes the rest of the text. -/
def blockPattern : String :=
  "/\\*[\\s\\S]*?(?:\\*/|\\Z)"

/-- The pattern of slash and block comments. -/
def slashPattern : String :=
  blockPattern ++ "|//[^\\n]*"

/-- The pattern of dash and block comments. A line starts behind every line feed. -/
def dashPattern : String :=
  "(?m)^[ \\t]*--[^\\n]*|" ++ blockPattern

/-- The pattern of block comments deletes what their reader deletes. -/
theorem blockPattern_deletes :
    ∃ pattern, Pattern.compile blockPattern = .ok pattern ∧
      ∀ text, pattern.deleteAll text = stripBlocks text := by
  refine ⟨⟨blockPattern, blockNode⟩, by decide +kernel, ?_⟩
  intro text
  obtain ⟨codes, hcut⟩ := exists_blockCut_iff text
  have hcodes : BlockCut text codes := (hcut codes).2 rfl
  have hblock : blockNode.Takes (commentAt opensNowhere) := blockNode_takes
  rw [stripBlocks, flatten_of_blockCut hcodes]
  exact deleteAll_of_takes opensLines_nowhere hblock hcodes

/-- The pattern of slash and block comments deletes what their reader deletes. -/
theorem slashPattern_deletes :
    ∃ pattern, Pattern.compile slashPattern = .ok pattern ∧
      ∀ text, pattern.deleteAll text = stripSlashComments text := by
  refine ⟨⟨slashPattern, slashNode⟩, by decide +kernel, ?_⟩
  intro text
  obtain ⟨codes, hcut⟩ := exists_slashCut text
  rw [stripSlashComments, flatten_of_slashCut hcut]
  exact deleteAll_of_takes opensLines_slash slashNode_takes hcut

/-- The pattern of dash and block comments deletes what their reader deletes. -/
theorem dashPattern_deletes :
    ∃ pattern, Pattern.compile dashPattern = .ok pattern ∧
      ∀ text, pattern.deleteAll text = stripDashComments text := by
  refine ⟨⟨dashPattern, dashNode⟩, by decide +kernel, ?_⟩
  intro text
  obtain ⟨codes, hcut⟩ := exists_dashCut text
  rw [stripDashComments, flatten_of_dashCut hcut]
  exact deleteAll_of_takes opensLines_dash dashNode_takes hcut

end Comment

end Minifier
