import Mathlib.Data.List.DropRight
import Minifier.Pattern
import Minifier.Proofs.Pattern.Scan
import Minifier.Proofs.Text.Compaction

/-!
# Patterns of marks

A pattern can be made from the characters of a string: it matches any of them, with the blanks on
both sides, and captures the character alone (`markPattern`). Characters that mean something in a
pattern are written behind a backslash, so whatever the characters are, they are read as themselves
(`compile_markPattern`). Writing every match as what it captures then is compaction around these
characters (`keepGroup_markPattern`), if none of them is a blank.

A match takes all blanks in front of its mark and behind it. So a gap between two marks goes with
the first of them, and the second one is found with no blank in front of it.
-/

set_option autoImplicit false

namespace Minifier

namespace Pattern

open Text

/-! ## Writing matches as what they capture -/

/-- Writes every match from a cursor on as what one of its groups has captured, left to right
without overlap. -/
def Node.keepFrom (node : Node) (index : Nat) : Nat → Bool → Cursor → Text
  | 0, _, s => s.rest
  | fuel + 1, mustMove, s =>
    match node.findFrom? mustMove s.before [] s.index s.left s.rest with
    | none => s.rest
    | some found =>
      found.passed.reverse ++ (found.after.groups.lookup index).getD [] ++
        node.keepFrom index fuel found.isEmpty found.after

/-- Writes every match of a pattern as what one of its groups has captured. -/
def keepGroup (pattern : Pattern) (index : Nat) (text : Text) : Text :=
  pattern.node.keepFrom index (2 * text.length + 2) false (Cursor.start text)

/-! ## The pattern -/

/-- Whether a character stands behind a backslash where a pattern is to match it. -/
def isSpecial (c : Char) : Bool :=
  "()[]\x7b\x7d?*+-|^$\\.&~# \t\n\r\x0b\x0c".toList.contains c

/-- The characters of a pattern that matches given characters. -/
def escaped (chars : List Char) : List Char :=
  chars.flatMap fun c => if isSpecial c then ['\\', c] else [c]

/-- The pattern of any of some characters, captured, with the blanks on both sides. -/
def markPattern (marks : String) : String :=
  "\\s*([" ++ String.ofList (escaped marks.toList) ++ "])\\s*"

/-- The class of some characters. -/
def GlyphClass.ofChars (chars : List Char) : GlyphClass :=
  ⟨false, chars.map fun c => .range c.toNat c.toNat, .exact, false⟩

/-- A glyph of a class, captured, with the blanks on both sides. -/
def markNode (c : GlyphClass) : Node :=
  .seq (.several .blanks 0 none .greedy)
    (.seq (.capture 1 (.one c)) (.several .blanks 0 none .greedy))

theorem contains_ofChars (marks : String) (g : Glyph) :
    (GlyphClass.ofChars marks.toList).contains g.code = oneOf marks g := by
  simp only [GlyphClass.contains, GlyphClass.ofChars, List.any_map, Bool.bne_false, oneOf, ofString]
  rw [Bool.eq_iff_iff, List.any_eq_true, List.contains_iff_mem, List.mem_map]
  simp [SetItem.contains_range, eq_comm]

/-! ## Reading the pattern -/

/-- The token of a character that is to match itself. -/
def Token.ofChar (c : Char) : Token :=
  if isSpecial c then .escaped c else .plain c

theorem tokens_escaped (chars rest : List Char) :
    tokens (escaped chars ++ rest) = chars.map Token.ofChar ++ tokens rest := by
  induction chars with
  | nil => rfl
  | cons c chars ih =>
    rw [escaped, List.flatMap_cons, List.append_assoc, List.map_cons, Token.ofChar]
    cases hc : isSpecial c with
    | true =>
      show Token.escaped c :: tokens (escaped chars ++ rest) = _
      rw [ih]
      rfl
    | false =>
      have hne : c ≠ '\\' := by
        rintro rfl
        exact absurd hc (by decide)
      show tokens (c :: (escaped chars ++ rest)) = _
      rw [tokens, ih]
      · rfl
      · intro hback
        exact absurd hback hne
      · intro _ _ hback
        exact absurd hback hne

/-- A token that a character is read from is none of those that mean something in a set. -/
theorem Token.ofChar_ne_plain {c d : Char} (hd : isSpecial d = true) :
    Token.ofChar c ≠ .plain d := by
  rw [Token.ofChar]
  split_ifs with hc
  · exact Token.noConfusion
  · rintro ⟨⟩
    exact hc hd

/-- The escape of a character that means something in a pattern stands for that character. -/
theorem escapes_of_isSpecial {c : Char} (hc : isSpecial c = true) :
    (simpleEscape? c).getD c.toNat = c.toNat ∧ categoryEscape? c = none ∧
      isCodeEscape c = false ∧ isOctal c = false ∧ (isAsciiDigit c || isAsciiLetter c) = false := by
  have hall : ("()[]\x7b\x7d?*+-|^$\\.&~# \t\n\r\x0b\x0c".toList.all fun d =>
      decide ((simpleEscape? d).getD d.toNat = d.toNat ∧ categoryEscape? d = none ∧
        isCodeEscape d = false ∧ isOctal d = false ∧
          (isAsciiDigit d || isAsciiLetter d) = false)) = true := by
    decide
  exact of_decide_eq_true (List.all_eq_true.1 hall c (List.contains_iff_mem.1 hc))

/-- What is read from the token of a character is the character. -/
theorem readSetMember_ofChar (c : Char) (reading : Reading) :
    readSetMember (Token.ofChar c) reading = .ok (.range c.toNat c.toNat, reading) := by
  rw [Token.ofChar]
  split_ifs with hc
  · obtain ⟨hsimple, hcategory, hcode, hoctal, hletter⟩ := escapes_of_isSpecial hc
    rw [readSetMember, readSetEscape, hcategory]
    cases hescape : simpleEscape? c with
    | some code =>
      rw [hescape, Option.getD_some] at hsimple
      rw [hsimple]
      rfl
    | none =>
      simp only [hcode, hoctal, hletter, Bool.false_eq_true, if_false]
      rfl
  · rfl

variable {reading : Reading} {rest : List Token} {items : List SetItem} {fuel : Nat}

theorem take_cons {token next : Token} (hnext : next ≠ .dangling) :
    take { reading with left := token :: next :: rest } =
      .ok (some token, { reading with left := next :: rest }) := by
  cases next with
  | plain => rfl
  | escaped => rfl
  | dangling => exact absurd rfl hnext

/-- Nothing is taken in front of a token that is not the plain character asked for. -/
theorem takeIf_of_ne {token : Token} {c : Char} (h : token ≠ .plain c) :
    takeIf c { reading with left := token :: rest } =
      .ok (false, { reading with left := token :: rest }) := by
  have hpeek : some token ≠ some (Token.plain c) := fun hsame => h (Option.some.inj hsame)
  show (if some token = some (Token.plain c) then _ else _ : Reader Bool) _ = _
  rw [if_neg hpeek]
  rfl

theorem Token.ofChar_ne_dangling (c : Char) : Token.ofChar c ≠ .dangling := by
  rw [Token.ofChar]
  split_ifs <;> exact Token.noConfusion

/-- A step of the reader that succeeds hands its state on. -/
theorem bind_of_ok {α β : Type} {step : Reader α} {more : α → Reader β} {before after : Reading}
    {a : α} (h : step before = .ok (a, after)) : (step >>= more) before = more a after := by
  show (step before >>= fun answer => more answer.1 answer.2) = _
  rw [h]
  rfl

/-- The members of a set that are read from characters. -/
theorem readSetItems_map_ofChar (items : List SetItem) (chars : List Char)
    (hfuel : chars.length < fuel) (hne : items ≠ [] ∨ chars ≠ []) {next : Token}
    (hnext : next ≠ .dangling) :
    readSetItems fuel items
        { reading with left := chars.map Token.ofChar ++ .plain ']' :: next :: rest } =
      .ok (items.reverse ++ chars.map fun c => .range c.toNat c.toNat,
        { reading with left := next :: rest }) := by
  induction chars generalizing fuel items with
  | nil =>
    obtain ⟨fuel, rfl⟩ := Nat.exists_eq_succ_of_ne_zero (Nat.ne_of_gt hfuel)
    have hempty : items.isEmpty = false := by simpa using hne
    rw [readSetItems, List.map_nil, List.nil_append, bind_of_ok (take_cons hnext)]
    simp only [hempty]
    rw [List.map_nil, List.append_nil]
    rfl
  | cons c chars ih =>
    obtain ⟨fuel, rfl⟩ := Nat.exists_eq_succ_of_ne_zero (Nat.ne_of_gt (Nat.zero_lt_of_lt hfuel))
    obtain ⟨token, others, hothers, hdangling, hminus⟩ : ∃ token others,
        chars.map Token.ofChar ++ .plain ']' :: next :: rest = token :: others ∧
          token ≠ .dangling ∧ token ≠ .plain '-' := by
      cases chars with
      | nil => exact ⟨_, _, rfl, Token.noConfusion, by decide⟩
      | cons d chars =>
        exact ⟨_, _, rfl, Token.ofChar_ne_dangling d, Token.ofChar_ne_plain (by decide)⟩
    have hplain : Token.ofChar c ≠ .plain ']' := Token.ofChar_ne_plain (by decide)
    have hrest := ih (.range c.toNat c.toNat :: items) (Nat.lt_of_succ_lt_succ hfuel)
      (Or.inl (List.cons_ne_nil _ _))
    rw [readSetItems, List.map_cons, List.cons_append, hothers, bind_of_ok (take_cons hdangling)]
    simp only [hplain, decide_false, Bool.false_and, Bool.false_eq_true, if_false]
    rw [bind_of_ok (readSetMember_ofChar c _), bind_of_ok (takeIf_of_ne hminus), ← hothers]
    simp only [Bool.false_eq_true, if_false]
    rw [hrest]
    simp

/-- A set that is read from characters has them for members. -/
theorem readSet_map_ofChar {chars : List Char} (hne : chars ≠ []) {next : Token}
    (hnext : next ≠ .dangling) :
    readSet { reading with left := chars.map Token.ofChar ++ .plain ']' :: next :: rest } =
      .ok (.set false (chars.map fun c => .range c.toNat c.toNat),
        { reading with left := next :: rest }) := by
  obtain ⟨c, chars, rfl⟩ := List.exists_cons_of_ne_nil hne
  have hcaret : Token.ofChar c ≠ .plain '^' := Token.ofChar_ne_plain (by decide)
  have hfuel : (c :: chars).length <
      ((c :: chars).map Token.ofChar ++ .plain ']' :: next :: rest).length + 1 := by
    rw [List.length_append, List.length_map]
    omega
  have hitems := @readSetItems_map_ofChar reading rest _ [] (c :: chars) hfuel
    (Or.inr (List.cons_ne_nil c chars)) next hnext
  rw [readSet, List.map_cons, List.cons_append, bind_of_ok (takeIf_of_ne hcaret)]
  show (readSetItems _ [] >>= fun items => pure (Form.set false items)) _ = _
  rw [← List.cons_append, ← List.map_cons, bind_of_ok hitems]
  rfl

theorem readGoal_bracket {first : Bool} {forms : List Form} {next : Token}
    (hnext : next ≠ .dangling) :
    readGoal (fuel + 1) (.items first false forms)
        { reading with left := .plain '[' :: next :: rest } =
      (readSet >>= fun form => readGoal fuel (.items first false (form :: forms)))
        { reading with left := next :: rest } := by
  cases next with
  | plain => rfl
  | escaped => rfl
  | dangling => exact absurd rfl hnext

/-- A group that holds a set is read from the characters of the set. -/
theorem readGoal_group {chars : List Char} (hne : chars ≠ []) {next : Token}
    (hnext : next ≠ .dangling) :
    readGoal (fuel + 4) (.group (some 1) {} {} false)
        { reading with
          left := .plain '[' ::
            (chars.map Token.ofChar ++ .plain ']' :: .plain ')' :: next :: rest) } =
      .ok (.group (some 1) {} {} (.set false (chars.map fun c => .range c.toNat c.toNat)),
        { reading with left := next :: rest, closed := (1, 1, 1) :: reading.closed }) := by
  have hset := @readSet_map_ofChar reading (next :: rest) chars hne (.plain ')') Token.noConfusion
  have hitems : readGoal (fuel + 2) (.items false false [])
      { reading with
        left := .plain '[' ::
          (chars.map Token.ofChar ++ .plain ']' :: .plain ')' :: next :: rest) } =
      .ok (.set false (chars.map fun c => .range c.toNat c.toNat),
        { reading with left := .plain ')' :: next :: rest }) := by
    obtain ⟨c, chars, rfl⟩ := List.exists_cons_of_ne_nil hne
    rw [List.map_cons, List.cons_append, readGoal_bracket (Token.ofChar_ne_dangling c),
      ← List.cons_append, ← List.map_cons, bind_of_ok hset]
    rfl
  have hbody : readGoal (fuel + 3) (.alternatives false false)
      { reading with
        left := .plain '[' ::
          (chars.map Token.ofChar ++ .plain ']' :: .plain ')' :: next :: rest) } =
      .ok (.set false (chars.map fun c => .range c.toNat c.toNat),
        { reading with left := .plain ')' :: next :: rest }) := by
    rw [readGoal, bind_of_ok hitems]
    rfl
  rw [readGoal]
  show (readGoal (fuel + 3) (.alternatives false false) >>= _) _ = _
  rw [bind_of_ok hbody]
  cases next with
  | plain => rfl
  | escaped => rfl
  | dangling => exact absurd rfl hnext

/-- The form of blanks, as many as there are. -/
def blanksForm : Form :=
  .repeated 0 none .greedy (.set false [.category .blank false])

/-- The form of a glyph of a set, captured, with the blanks on both sides. -/
def markForm (items : List SetItem) : Form :=
  .seq blanksForm (.seq (.group (some 1) {} {} (.set false items)) blanksForm)

/-- The items of the pattern are read one after another: blanks, a group, and blanks again. -/
theorem readGoal_marks {chars : List Char} (hne : chars ≠ []) (fuel : Nat) :
    readGoal (fuel + 11) (.items true false [])
        { left := .escaped 's' :: .plain '*' :: .plain '(' :: .plain '[' ::
            (chars.map Token.ofChar ++ [.plain ']', .plain ')', .escaped 's', .plain '*']) } =
      .ok (markForm (chars.map fun c => .range c.toNat c.toNat),
        { left := [], opened := 1, closed := [(1, 1, 1)] }) := by
  have hgroup := @readGoal_group { left := [], opened := 1 } [.plain '*'] (fuel + 4) chars hne
    (.escaped 's') Token.noConfusion
  show (readGoal (fuel + 8) (.group (some 1) {} {} false) >>= fun group =>
    readGoal (fuel + 8) (.items true false [group, blanksForm])) _ = _
  rw [bind_of_ok hgroup]
  rfl

/-- The pattern of marks matches just these, whatever they are. -/
theorem compile_markPattern {marks : String} (h : marks ≠ "") :
    Pattern.compile (markPattern marks) =
      .ok ⟨markPattern marks, markNode (.ofChars marks.toList)⟩ := by
  have hne : marks.toList ≠ [] := fun hnil => h (String.toList_eq_nil_iff.1 hnil)
  have htokens : tokens (markPattern marks).toList =
      .escaped 's' :: .plain '*' :: .plain '(' :: .plain '[' ::
        (marks.toList.map Token.ofChar ++
          [.plain ']', .plain ')', .escaped 's', .plain '*']) := by
    have hchars : (String.ofList (escaped marks.toList)).toList = escaped marks.toList :=
      String.toList_ofList
    rw [markPattern, String.toList_append, String.toList_append, hchars, List.append_assoc]
    show Token.escaped 's' :: .plain '*' :: .plain '(' :: .plain '[' ::
      tokens (escaped marks.toList ++ "])\\s*".toList) = _
    rw [tokens_escaped]
    rfl
  -- the fuel that compiling gives is more than reading the marks needs
  obtain ⟨fuel, hfuel⟩ : ∃ fuel,
      4 * (tokens (markPattern marks).toList).length + 8 = fuel + 12 := by
    rw [htokens, List.length_cons]
    exact ⟨_, by rw [Nat.mul_add]⟩
  -- the pattern is read as one alternative, and nothing is left behind it
  have hall : (moveTo (tokens (markPattern marks).toList) >>= fun _ =>
      readGoal (4 * (tokens (markPattern marks).toList).length + 8) (.alternatives true false))
        { left := [] } =
      .ok (markForm (marks.toList.map fun c => .range c.toNat c.toNat),
        { left := [], opened := 1, closed := [(1, 1, 1)] }) := by
    rw [hfuel, htokens]
    show readGoal (fuel + 12) (.alternatives true false) _ = _
    rw [readGoal, bind_of_ok (readGoal_marks hne fuel)]
    rfl
  have hread : Pattern.read (markPattern marks) =
      .ok (markForm (marks.toList.map fun c => .range c.toNat c.toNat), {}) := by
    unfold Pattern.read
    simp only [StateT.run]
    rw [hall]
    rfl
  rw [Pattern.compile, hread]
  rfl

/-! ## What the pattern matches -/

section Matching

variable {c : GlyphClass} {s : Cursor} {next : Continuation} {g : Glyph} {run text : Text}

/-- A mark that is captured, and the blanks behind it. -/
def markTail (c : GlyphClass) : Node :=
  .seq (.capture 1 (.one c)) (.several .blanks 0 none .greedy)

/-- The cursor behind a mark with blanks on both sides, which is captured. -/
def Cursor.behindMark (run : Text) (g : Glyph) (run' : Text) (s : Cursor) : Cursor :=
  { s.behind (run ++ g :: run') with groups := (1, [g]) :: s.groups }

theorem run_markTail_of_not (h : s.rest.head?.any (fun g => c.contains g.code) = false) :
    (markTail c).run next s = none := by
  have hstep : s.step? c = none := by
    rw [Cursor.step?]
    cases hrest : s.rest with
    | nil => rfl
    | cons g rest =>
      rw [hrest] at h
      exact if_neg (Bool.eq_false_iff.1 h)
  show (Node.one c).run _ s = none
  rw [Node.run_one, hstep, Option.bind_none]

/-- Behind a mark all blanks are taken, if what is to come is content with that. -/
theorem run_markTail (hleft : s.rest.length ≤ s.left) (hrest : s.rest = g :: text)
    (hg : c.contains g.code = true)
    (hnext : next (s.behindMark [] g (text.takeWhile Glyph.isBlank)) =
      some (s.behindMark [] g (text.takeWhile Glyph.isBlank))) :
    (markTail c).run next s = some (s.behindMark [] g (text.takeWhile Glyph.isBlank)) := by
  have hstep : s.step? c = some (s.past g text) := by
    rw [Cursor.step?, hrest]
    exact if_pos hg
  have htaken : s.rest.take (s.index + 1 - s.index) = [g] := by
    rw [Nat.add_sub_cancel_left, hrest]
    rfl
  -- the blanks are taken from behind the mark, which the group holds by then
  have hend : ({ s.past g text with groups := (1, [g]) :: s.groups } : Cursor).behind
      (GlyphClass.blanks.firstOf text) = s.behindMark [] g (text.takeWhile Glyph.isBlank) := by
    rw [GlyphClass.firstOf_blanks, Cursor.behindMark, List.nil_append,
      ← Cursor.behind_past g text _ hrest]
    rfl
  show (Node.one c).run (fun e => (Node.several .blanks 0 none .greedy).run next
    { e with groups := (1, s.rest.take (e.index - s.index)) :: e.groups }) s = _
  rw [Node.run_one, hstep, Option.bind_some]
  show (Node.several .blanks 0 none .greedy).run next
    { s.past g text with groups := (1, s.rest.take (s.index + 1 - s.index)) :: s.groups } = _
  rw [htaken, ← hend]
  apply run_greedy_of_eq_some
  · exact Cursor.rest_past_le hleft hrest
  · rw [← hend] at hnext
    exact hnext

/-- The first repetition gives no blank back, since no mark is a blank. -/
theorem run_markNode (hc : Inked fun g => c.contains g.code)
    (hleft : s.rest.length ≤ s.left) :
    (markNode c).run next s =
      (markTail c).run next (s.behind (s.rest.takeWhile Glyph.isBlank)) := by
  show (Node.several .blanks 0 none .greedy).run (fun e => (markTail c).run next e) s = _
  rw [run_greedy hleft, GlyphClass.firstOf_blanks]
  intro e hblank _
  apply run_markTail_of_not
  cases hrest : e.rest with
  | nil => rfl
  | cons g rest =>
    rw [hrest, List.head?_cons, Option.any_some, GlyphClass.contains_blanks] at hblank
    rw [List.head?_cons, Option.any_some, Bool.eq_false_iff]
    intro hg
    rw [hc g hg] at hblank
    cases hblank

/-- Blanks with no mark behind them are no match. -/
theorem matchAt?_markNode_of_not (hc : Inked fun g => c.contains g.code)
    (mustMove : Bool) (hleft : s.rest.length ≤ s.left)
    (h : (s.rest.dropWhile Glyph.isBlank).head?.any (fun g => c.contains g.code) = false) :
    (markNode c).matchAt? mustMove s = none := by
  rw [Node.matchAt?, run_markNode hc hleft]
  apply run_markTail_of_not
  rw [Cursor.rest_behind_takeWhile]
  exact h

/-- A mark with the blanks on both sides is a match. -/
theorem matchAt?_markNode (hc : Inked fun g => c.contains g.code)
    (mustMove : Bool) (hleft : s.rest.length ≤ s.left) (hrun : IsRun run)
    (hrest : s.rest = run ++ g :: text) (hg : c.contains g.code = true) :
    (markNode c).matchAt? mustMove s =
      some (s.behindMark run g (text.takeWhile Glyph.isBlank)) := by
  have hfirst : s.rest.takeWhile Glyph.isBlank = run := by
    rw [hrest, List.takeWhile_append_of_pos hrun, List.takeWhile_cons_of_neg (by simp [hc g hg]),
      List.append_nil]
  have hend : (s.behind run).behindMark [] g (text.takeWhile Glyph.isBlank) =
      s.behindMark run g (text.takeWhile Glyph.isBlank) := by
    rw [Cursor.behindMark, Cursor.behindMark, List.nil_append, Cursor.behind_behind]
    rfl
  have hmoves : ¬ (s.behindMark run g (text.takeWhile Glyph.isBlank)).index = s.index := by
    rw [Cursor.behindMark, Cursor.index_behind, List.length_append, List.length_cons]
    omega
  rw [Node.matchAt?, run_markNode hc hleft, hfirst, ← hend]
  apply run_markTail
  · exact Cursor.rest_behind_le hleft run
  · exact Cursor.rest_behind hrest
  · exact hg
  · rw [hend, decide_eq_false hmoves, Bool.and_false]
    rfl

/-- Blanks with no mark behind them, and a glyph that is no mark, are passed over. -/
theorem findFrom?_cons_of_not (hc : Inked fun g => c.contains g.code)
    (mustMove : Bool) (before passed : Text) (index : Nat) {left : Nat}
    (hleft : (g :: text).length ≤ left)
    (h : ((g :: text).dropWhile Glyph.isBlank).head?.any (fun g => c.contains g.code) = false) :
    (markNode c).findFrom? mustMove before passed index left (g :: text) =
      (markNode c).findFrom? false (g :: before) (g :: passed) (index + 1) (left - 1) text := by
  have hnone := matchAt?_markNode_of_not (s := ⟨before, index, g :: text, left, []⟩) hc mustMove
    hleft h
  rw [Node.findFrom?, hnone]

/-- A run of blanks with no mark behind it is passed over. -/
theorem findFrom?_run_append (hc : Inked fun g => c.contains g.code)
    (hrun : IsRun run) (h : (text.dropWhile Glyph.isBlank).head?.any
      (fun g => c.contains g.code) = false) (mustMove : Bool) (before passed : Text) (index : Nat)
    {left : Nat} (hleft : (run ++ text).length ≤ left) :
    ∃ mustMove', (markNode c).findFrom? mustMove before passed index left (run ++ text) =
      (markNode c).findFrom? mustMove' (run.reverse ++ before) (run.reverse ++ passed)
        (index + run.length) (left - run.length) text := by
  induction run generalizing mustMove before passed index left with
  | nil => exact ⟨mustMove, rfl⟩
  | cons b run ih =>
    have hskip : (b :: run ++ text).dropWhile Glyph.isBlank = text.dropWhile Glyph.isBlank :=
      List.dropWhile_append_of_pos hrun
    have hshort : (run ++ text).length ≤ left - 1 := Nat.le_sub_one_of_lt hleft
    obtain ⟨mustMove', hfind⟩ := ih (isRun_cons.1 hrun).2 false (b :: before) (b :: passed)
      (index + 1) hshort
    refine ⟨mustMove', ?_⟩
    -- no mark comes next behind the blanks, so the first of them is passed over
    have hstep := @findFrom?_cons_of_not c b (run ++ text) hc mustMove before passed index left
      hleft (hskip ▸ h)
    have hindex : index + 1 + run.length = index + (b :: run).length := by
      rw [List.length_cons]
      omega
    have hcount : left - 1 - run.length = left - (b :: run).length := by
      rw [List.length_cons]
      omega
    rw [List.cons_append, hstep, hfind, hindex, hcount, List.reverse_cons, List.append_assoc,
      List.append_assoc]
    rfl

/-- The first match that a gap is not in front of: it is at the mark that ends the gap. -/
theorem findFrom?_mark (hc : Inked fun g => c.contains g.code)
    (hrun : IsRun run) (hg : c.contains g.code = true) (mustMove : Bool) (before passed : Text)
    (index : Nat) {left : Nat} (hleft : (run ++ g :: text).length ≤ left) :
    (markNode c).findFrom? mustMove before passed index left (run ++ g :: text) =
      some ⟨passed, false, Cursor.behindMark run g (text.takeWhile Glyph.isBlank)
        ⟨before, index, run ++ g :: text, left, []⟩⟩ := by
  have hmatch := matchAt?_markNode (s := ⟨before, index, run ++ g :: text, left, []⟩) hc mustMove
    hleft hrun rfl hg
  have hmoves : ¬ (Cursor.behindMark run g (text.takeWhile Glyph.isBlank)
      ⟨before, index, run ++ g :: text, left, []⟩).index = index := by
    show ¬ index + (run ++ g :: text.takeWhile Glyph.isBlank).length = index
    rw [List.length_append, List.length_cons]
    omega
  obtain ⟨first, rest, hcons⟩ : ∃ first rest, run ++ g :: text = first :: rest :=
    List.exists_cons_of_ne_nil (by simp)
  rw [hcons] at hmatch hmoves ⊢
  rw [Node.findFrom?, hmatch]
  simp only [decide_eq_false hmoves]

end Matching

/-! ## Matches and gaps -/

section Gaps

variable {marks : Glyph → Bool} {before before' text : Text}

/-- Behind a mark no blanks are left to read. -/
def Clear (marks : Glyph → Bool) (before text : Text) : Prop :=
  before.head?.any marks = true → text.dropWhile Glyph.isBlank = text

/-- Where it is clear and a gap is still to be read, no mark is in front of the gap. -/
theorem Clear.head?_eq_false {run : Text} (h : Clear marks before (run ++ text)) (hrun : IsRun run)
    (htext : text.dropWhile Glyph.isBlank = text) (hne : run ≠ []) :
    before.head?.any marks = false := by
  rw [Bool.eq_false_iff]
  intro hmark
  have hsame := h hmark
  rw [List.dropWhile_append_of_pos hrun, htext] at hsame
  exact hne (List.self_eq_append_left.1 hsame)

/-- A gap that touches no mark is kept, where no mark is a blank. -/
theorem fill_compactRule_of_not (h : Inked marks) {run : Text}
    (hrun : IsRun run) (after : Text) (hbefore : run ≠ [] → before.head?.any marks = false)
    (hafter : after.head?.any marks = false) :
    fill (compactRule marks) before run after = run := by
  cases run with
  | nil => rfl
  | cons b run =>
    rw [fill_of_ne_nil _ _ _ (List.cons_ne_nil b run), compactRule, Gap.touches, hafter,
      hbefore (List.cons_ne_nil b run)]
    exact remainder_of_inked h hrun

/-- A gap that touches a mark goes. -/
theorem fill_compactRule_of_touches (run after : Text)
    (h : before.head?.any marks = true ∨ after.head?.any marks = true) :
    fill (compactRule marks) before run after = [] := by
  cases run with
  | nil => rfl
  | cons b run =>
    rw [fill_of_ne_nil _ _ _ (List.cons_ne_nil b run), compactRule]
    exact if_pos (Bool.or_eq_true_iff.2 h)

/-- Behind a mark, compaction goes on behind the blanks that follow. -/
theorem respaceFrom_dropWhile (hbefore : before.head?.any marks = true) (before' : Text) :
    respaceFrom (compactRule marks) before [] text =
      respaceFrom (compactRule marks) before' [] (text.dropWhile Glyph.isBlank) := by
  induction text using gap_induction with
  | run run hrun =>
    rw [respaceFrom_run _ before hrun, fill_compactRule_of_touches run [] (.inl hbefore),
      List.dropWhile_eq_nil_iff.2 hrun]
    rfl
  | glyph run g rest hrun hg _ =>
    have hdrop : (run ++ g :: rest).dropWhile Glyph.isBlank = g :: rest := by
      rw [List.dropWhile_append_of_pos hrun, List.dropWhile_cons_of_neg (by simp [hg])]
    have hnext := respaceFrom_ink (compactRule marks) before' isRun_nil hg rest
    rw [List.nil_append, fill_nil, List.nil_append] at hnext
    rw [hdrop, respaceFrom_ink _ before hrun hg,
      fill_compactRule_of_touches run (g :: rest) (.inl hbefore), List.nil_append, hnext]
    exact congrArg (g :: ·) (respaceFrom_congr_before (isLocal_compactRule marks) rest rfl)

end Gaps

section Keeping

variable {c : GlyphClass} {before passed text : Text} {index left : Nat} {found : Found}

/-- A match in a text ends at a mark: the text up to there is what compaction makes of it, but for
the mark, which is captured, and behind the match it is clear. -/
structure Marked (marks : Glyph → Bool) (before passed text : Text) (found : Found)
    (front : Text) (mark : Glyph) : Prop where
  passed_eq : found.passed = front.reverse ++ passed
  isEmpty_eq : found.isEmpty = false
  captured : found.after.groups.lookup 1 = some [mark]
  shorter : found.after.rest.length < text.length
  counted : found.after.rest.length ≤ found.after.left
  clear : Clear marks found.after.before found.after.rest
  respace_eq : respaceFrom (compactRule marks) before [] text =
    front ++ mark :: respaceFrom (compactRule marks) found.after.before [] found.after.rest

/-- The match that ends at the first mark of a text, if nothing but blanks is in front of it. -/
theorem marked_behindMark {marks : Glyph → Bool} {run : Text} {g : Glyph} (hrun : IsRun run)
    (hg : g.isBlank = false) (hmark : marks g = true) (hleft : (run ++ g :: text).length ≤ left) :
    Marked marks before passed (run ++ g :: text)
      ⟨passed, false, Cursor.behindMark run g (text.takeWhile Glyph.isBlank)
        ⟨before, index, run ++ g :: text, left, []⟩⟩ [] g := by
  have hwhole : run ++ g :: text =
      (run ++ g :: text.takeWhile Glyph.isBlank) ++ text.dropWhile Glyph.isBlank := by
    rw [List.append_assoc, List.cons_append, List.takeWhile_append_dropWhile]
  have hrest : (Cursor.behindMark run g (text.takeWhile Glyph.isBlank)
      ⟨before, index, run ++ g :: text, left, []⟩).rest = text.dropWhile Glyph.isBlank :=
    Cursor.rest_behind hwhole
  refine ⟨rfl, rfl, rfl, ?_, ?_, ?_, ?_⟩
  · rw [hrest, List.length_append, List.length_cons]
    have hle := List.length_dropWhile_le Glyph.isBlank text
    omega
  · exact Cursor.rest_behind_le hleft (run ++ g :: text.takeWhile Glyph.isBlank)
  · intro _
    rw [hrest]
    exact List.dropWhile_idempotent _ _
  · rw [hrest, respaceFrom_ink _ before hrun hg,
      fill_compactRule_of_touches run (g :: text) (.inr hmark)]
    have hbehind : (g :: (run.reverse ++ before)).head?.any marks = true := hmark
    exact congrArg (g :: ·) (respaceFrom_dropWhile hbehind _)

/-- A match behind a gap that is kept and a glyph that is no mark. -/
theorem Marked.behind {marks : Glyph → Bool} {run front : Text} {g mark : Glyph} (hrun : IsRun run)
    (hg : g.isBlank = false) (hkept : fill (compactRule marks) before run (g :: text) = run)
    (h : Marked marks (g :: (run.reverse ++ before)) (g :: (run.reverse ++ passed)) text found
      front mark) :
    Marked marks before passed (run ++ g :: text) found (run ++ g :: front) mark := by
  refine ⟨?_, h.isEmpty_eq, h.captured, ?_, h.counted, h.clear, ?_⟩
  · rw [h.passed_eq]
    simp
  · have hlt := h.shorter
    rw [List.length_append, List.length_cons]
    omega
  · rw [respaceFrom_ink _ before hrun hg, hkept, h.respace_eq]
    simp

/-- The first match in a text is at the first mark. Where there is none, compaction changes
nothing. -/
theorem findFrom?_markNode (hc : Inked fun g => c.contains g.code)
    (mustMove : Bool) (passed : Text) (index : Nat) (hleft : text.length ≤ left)
    (hclear : Clear (fun g => c.contains g.code) before text) :
    ((markNode c).findFrom? mustMove before passed index left text = none ∧
      respaceFrom (compactRule fun g => c.contains g.code) before [] text = text) ∨
    ∃ found front mark,
      (markNode c).findFrom? mustMove before passed index left text = some found ∧
        Marked (fun g => c.contains g.code) before passed text found front mark := by
  induction text using gap_induction generalizing mustMove before passed index left with
  | run run hrun =>
    left
    rw [← List.append_nil run] at hleft hclear
    obtain ⟨mustMove', hfind⟩ :=
      findFrom?_run_append hc hrun rfl mustMove before passed index hleft
    have hnone := matchAt?_markNode_of_not
      (s := ⟨run.reverse ++ before, index + run.length, [], left - run.length, []⟩) hc mustMove'
      (Nat.zero_le _) rfl
    rw [List.append_nil, Node.findFrom?, hnone] at hfind
    have hkept := fill_compactRule_of_not hc hrun []
      (hclear.head?_eq_false hrun rfl) rfl
    exact ⟨hfind, by rw [respaceFrom_run _ before hrun, hkept]⟩
  | glyph run g rest hrun hg ih =>
    have hdrop : (g :: rest).dropWhile Glyph.isBlank = g :: rest :=
      List.dropWhile_cons_of_neg (by simp [hg])
    cases hmark : c.contains g.code with
    | true =>
      right
      exact ⟨_, [], g, findFrom?_mark hc hrun hmark mustMove before passed index hleft,
        marked_behindMark hrun hg hmark hleft⟩
    | false =>
      have hnot : ((g :: rest).dropWhile Glyph.isBlank).head?.any
          (fun g => c.contains g.code) = false := by
        rw [hdrop]
        exact hmark
      have hkept := fill_compactRule_of_not hc hrun (g :: rest)
        (hclear.head?_eq_false hrun hdrop) hmark
      have hshort : (g :: rest).length ≤ left - run.length := by
        rw [List.length_append] at hleft
        omega
      obtain ⟨mustMove', hfind⟩ :=
        findFrom?_run_append hc hrun hnot mustMove before passed index hleft
      rw [findFrom?_cons_of_not hc mustMove' _ _ _ hshort hnot] at hfind
      -- the search goes on behind `g`, which is no mark
      have hclear' : Clear (fun g => c.contains g.code) (g :: (run.reverse ++ before)) rest := by
        intro hmark'
        rw [List.head?_cons, Option.any_some, hmark] at hmark'
        cases hmark'
      rw [hfind]
      rcases ih false _ _ (Nat.le_sub_one_of_lt hshort) hclear' with
        ⟨hnone, hsame⟩ | ⟨found, front, mark, hfound, h⟩
      · exact .inl ⟨hnone, by rw [respaceFrom_ink _ before hrun hg, hkept, hsame]⟩
      · exact .inr ⟨found, run ++ g :: front, mark, hfound, h.behind hrun hg hkept⟩

/-- Writing each match of marks from a cursor on as the mark alone is compaction from there on. -/
theorem keepFrom_markNode (hc : Inked fun g => c.contains g.code)
    (mustMove : Bool) {fuel : Nat} {s : Cursor} (hfuel : s.rest.length < fuel)
    (hleft : s.rest.length ≤ s.left) (hclear : Clear (fun g => c.contains g.code) s.before s.rest) :
    (markNode c).keepFrom 1 fuel mustMove s =
      respaceFrom (compactRule fun g => c.contains g.code) s.before [] s.rest := by
  induction fuel generalizing mustMove s with
  | zero => cases hfuel
  | succ fuel ih =>
    rw [Node.keepFrom]
    rcases findFrom?_markNode hc mustMove [] s.index hleft hclear with
      ⟨hnone, hsame⟩ | ⟨found, front, mark, hfound, h⟩
    · rw [hnone, hsame]
    · have hrest := ih found.isEmpty (Nat.lt_of_lt_of_le h.shorter (Nat.le_of_lt_succ hfuel))
        h.counted h.clear
      rw [hfound, h.respace_eq, ← hrest]
      simp [h.passed_eq, h.captured]

/-- Writing each match of marks as the mark alone is compaction, where no mark is a blank. -/
theorem keepGroup_markPattern {marks : String} {pattern : Pattern} (hmarks : marks ≠ "")
    (hink : ∀ m ∈ marks.toList, (Glyph.char m).isBlank = false)
    (hcompile : Pattern.compile (markPattern marks) = .ok pattern) (text : Text) :
    pattern.keepGroup 1 text = compact (oneOf marks) text := by
  rw [compile_markPattern hmarks, Except.ok.injEq] at hcompile
  subst hcompile
  have hc : Inked fun g => (GlyphClass.ofChars marks.toList).contains g.code := by
    simp only [contains_ofChars]
    exact inked_oneOf hink
  have hfuel : (Cursor.start text).rest.length < 2 * text.length + 2 := by
    show text.length < 2 * text.length + 2
    omega
  have hall := keepFrom_markNode hc false hfuel (Nat.le_refl _)
    (fun hmark => Bool.noConfusion hmark)
  simp only [contains_ofChars] at hall
  exact hall

end Keeping

/-! ## Compaction by patterns -/

theorem compactAround?_of_ne {marks : String} (h : marks ≠ "") (text : Text) :
    compactAround? marks text = some (compact (oneOf marks) text) := by
  have hempty : ¬ marks.isEmpty = true := fun hempty => h (String.isEmpty_iff.1 hempty)
  rw [compactAround?, if_neg hempty]

/-- Compaction around the characters of a string writes every match of their pattern as the
character alone. Around those of two strings, one after the other, it is compaction around all of
them; it is idempotent, does not depend on the order, deletes blanks only, and leaves none of them
next to the characters. -/
theorem compaction_composes (first second : String) (hfirst : first ≠ "") (hsecond : second ≠ "")
    (hink : ∀ m ∈ first.toList, (Glyph.char m).isBlank = false)
    (hink' : ∀ m ∈ second.toList, (Glyph.char m).isBlank = false) :
    ∃ pattern pattern' both : Pattern,
      Pattern.compile (markPattern first) = .ok pattern ∧
      Pattern.compile (markPattern second) = .ok pattern' ∧
      Pattern.compile (markPattern (first ++ second)) = .ok both ∧
      ∀ text : Text,
        compactAround? first text = some (pattern.keepGroup 1 text) ∧
        compactAround? second text = some (pattern'.keepGroup 1 text) ∧
        compactAround? (first ++ second) text = some (both.keepGroup 1 text) ∧
        pattern'.keepGroup 1 (pattern.keepGroup 1 text) = both.keepGroup 1 text ∧
        pattern.keepGroup 1 (pattern.keepGroup 1 text) = pattern.keepGroup 1 text ∧
        pattern.keepGroup 1 (pattern'.keepGroup 1 text) =
          pattern'.keepGroup 1 (pattern.keepGroup 1 text) ∧
        ink (both.keepGroup 1 text) = ink text ∧ (both.keepGroup 1 text).Sublist text ∧
        (both.keepGroup 1 text).IsChain fun a b =>
          (oneOf (first ++ second) a = true → b.isBlank = false) ∧
            (oneOf (first ++ second) b = true → a.isBlank = false) := by
  have hboth : first ++ second ≠ "" := by
    intro hempty
    exact hfirst (String.append_eq_empty_iff.1 hempty).1
  have hink_both : ∀ m ∈ (first ++ second).toList, (Glyph.char m).isBlank = false := by
    rw [String.toList_append]
    exact List.forall_mem_append.2 ⟨hink, hink'⟩
  have hcompile := compile_markPattern hfirst
  have hcompile' := compile_markPattern hsecond
  have hcompile_both := compile_markPattern hboth
  refine ⟨_, _, _, hcompile, hcompile', hcompile_both, fun text => ?_⟩
  simp only [keepGroup_markPattern hfirst hink hcompile,
    keepGroup_markPattern hsecond hink' hcompile',
    keepGroup_markPattern hboth hink_both hcompile_both]
  have hfirst_inked := inked_oneOf hink
  have hsecond_inked := inked_oneOf hink'
  refine ⟨compactAround?_of_ne hfirst text, compactAround?_of_ne hsecond text,
    compactAround?_of_ne hboth text, ?_, ?_, ?_, ?_, ?_, ?_⟩
  · rw [compact_compact hfirst_inked hsecond_inked, oneOf_append]
  · exact compact_idem hfirst_inked text
  · exact compact_comm hsecond_inked hfirst_inked text
  · exact ink_compact _ text
  · exact compact_sublist _ text
  · exact isChain_compact (inked_oneOf hink_both) text

/-- Characters that mean something in a set are marks like any others. -/
theorem compaction_composes_at_specials :
    "]^" ≠ "" ∧ "-\\" ≠ "" ∧
    (∀ m ∈ "]^".toList, (Glyph.char m).isBlank = false) ∧
    (∀ m ∈ "-\\".toList, (Glyph.char m).isBlank = false) ∧
    ∃ pattern pattern' both : Pattern,
      Pattern.compile (markPattern "]^") = .ok pattern ∧
      Pattern.compile (markPattern "-\\") = .ok pattern' ∧
      Pattern.compile (markPattern ("]^" ++ "-\\")) = .ok both ∧
      pattern'.keepGroup 1 (pattern.keepGroup 1 (ofString "a ] - \\ b ^ c")) =
        both.keepGroup 1 (ofString "a ] - \\ b ^ c") ∧
      compactAround? ("]^" ++ "-\\") (ofString "a ] - \\ b ^ c") =
        some (ofString "a]-\\b^c") := by
  have hink : ∀ m ∈ "]^".toList, (Glyph.char m).isBlank = false :=
    List.forall_mem_cons.2 ⟨by decide, List.forall_mem_singleton.2 (by decide)⟩
  have hink' : ∀ m ∈ "-\\".toList, (Glyph.char m).isBlank = false :=
    List.forall_mem_cons.2 ⟨by decide, List.forall_mem_singleton.2 (by decide)⟩
  obtain ⟨pattern, pattern', both, hcompile, hcompile', hboth, h⟩ :=
    compaction_composes "]^" "-\\" (by decide) (by decide) hink hink'
  obtain ⟨-, -, -, hcomposed, -⟩ := h (ofString "a ] - \\ b ^ c")
  exact ⟨by decide, by decide, hink, hink', pattern, pattern', both, hcompile, hcompile', hboth,
    hcomposed, by decide⟩

end Pattern

end Minifier
