import Minifier.Proofs.Pattern.Deletion

/-!
# Scanning a text for matches

What a node takes at a place can often be told from the glyphs before and after it, without
backtracking: `Node.Takes` says so, and `Scan` is the reading of a text from left to right that
leaves out what is taken, without overlap. Deleting all matches of such a node is a scan
(`scan_deleteAll`).

A node takes what it does however it backtracks. Characters one after another are read where the
text has them (`run_spelled`). A greedy repetition that could only succeed at its longest advance
goes there at once (`run_greedy`), because the glyphs it would give back are still to be read.
-/

set_option autoImplicit false

namespace Minifier

/-! ## Code points -/

/-- No opaque glyph has the code point of a character. -/
theorem Glyph.code_eq_toNat_iff (g : Glyph) (c : Char) : g.code = c.toNat ↔ g = .char c := by
  cases g with
  | char d =>
    rw [Glyph.code, Glyph.char.injEq, Char.toNat, Char.toNat, UInt32.toNat_inj, ← Char.ext_iff]
  | byte b =>
    have hvalid : Nat.isValidChar c.toNat := c.valid
    have hbyte := b.toNat_lt
    simp only [Glyph.code, reduceCtorEq, iff_false]
    rcases hvalid with hlow | ⟨hhigh, -⟩
    · omega
    · omega

theorem isBlankCode_code (g : Glyph) : isBlankCode g.code = g.isBlank := by
  cases g with
  | char c => rfl
  | byte b =>
    have hbyte := b.toNat_lt
    rw [Glyph.isBlank, Glyph.code, isBlankCode, if_neg (by omega)]
    simp only [Bool.or_eq_false_iff, beq_eq_false_iff_ne, Bool.and_eq_false_iff,
      decide_eq_false_iff_not]
    omega

namespace Pattern

variable {s e : Cursor} {c : GlyphClass} {next : Continuation} {node : Node} {text : Text}

/-! ## Classes of glyphs -/

/-- The class of one code point. -/
def GlyphClass.only (code : Nat) : GlyphClass :=
  ⟨false, [.range code code], .exact, false⟩

/-- The class of all blanks. -/
def GlyphClass.blanks : GlyphClass :=
  ⟨false, [.category .blank false], .exact, false⟩

/-- The class of all glyphs, blanks or not. -/
def GlyphClass.all : GlyphClass :=
  ⟨false, [.category .blank false, .category .blank true], .exact, false⟩

theorem SetItem.contains_range (c : Char) (g : Glyph) :
    (SetItem.range c.toNat c.toNat).contains false .exact g.code = decide (g = .char c) := by
  simp only [SetItem.contains, Folding.variants, List.any_cons, List.any_nil, Bool.or_false,
    ← Bool.decide_and]
  apply decide_eq_decide.2
  rw [← g.code_eq_toNat_iff c]
  exact ⟨fun h => Nat.le_antisymm h.2 h.1, fun h => ⟨Nat.le_of_eq h.symm, Nat.le_of_eq h⟩⟩

theorem GlyphClass.contains_only (c : Char) (g : Glyph) :
    (GlyphClass.only c.toNat).contains g.code = decide (g = .char c) := by
  simp [GlyphClass.contains, GlyphClass.only, SetItem.contains_range]

theorem GlyphClass.contains_allBut (c : Char) (g : Glyph) :
    (GlyphClass.allBut [.range c.toNat c.toNat]).contains g.code = decide (g ≠ .char c) := by
  simp [GlyphClass.contains, GlyphClass.allBut, SetItem.contains_range]

theorem GlyphClass.contains_blanks (g : Glyph) : GlyphClass.blanks.contains g.code = g.isBlank := by
  rw [← isBlankCode_code]
  simp [GlyphClass.contains, GlyphClass.blanks, SetItem.contains, Category.contains, Folding.fold]

theorem GlyphClass.contains_all (g : Glyph) : GlyphClass.all.contains g.code = true := by
  simp [GlyphClass.contains, GlyphClass.all, SetItem.contains]

/-! ## Cursors further on -/

/-- A cursor behind a text that it stands before. -/
def Cursor.behind (text : Text) (s : Cursor) : Cursor :=
  { s with
    before := text.reverse ++ s.before
    index := s.index + text.length
    rest := s.rest.drop text.length
    left := s.left - text.length }

theorem Cursor.behind_nil (s : Cursor) : s.behind [] = s :=
  rfl

theorem Cursor.index_behind (text : Text) (s : Cursor) :
    (s.behind text).index = s.index + text.length :=
  rfl

theorem Cursor.behind_past (g : Glyph) (rest text : Text) (h : s.rest = g :: rest) :
    (s.past g rest).behind text = s.behind (g :: text) := by
  simp only [Cursor.behind, Cursor.past, h, List.reverse_cons, List.append_assoc, List.cons_append,
    List.nil_append, List.length_cons, List.drop_succ_cons, Cursor.mk.injEq, true_and, and_true]
  omega

theorem Cursor.behind_behind (s : Cursor) (text text' : Text) :
    (s.behind text).behind text' = s.behind (text ++ text') := by
  simp only [Cursor.behind, List.reverse_append, List.append_assoc, List.length_append,
    List.drop_drop, Cursor.mk.injEq, true_and, and_true]
  omega

/-- A cursor that counts enough glyphs to come still does so further on. -/
theorem Cursor.rest_behind_le (h : s.rest.length ≤ s.left) (text : Text) :
    (s.behind text).rest.length ≤ (s.behind text).left := by
  rw [Cursor.behind, List.length_drop]
  exact Nat.sub_le_sub_right h text.length

theorem Cursor.rest_behind {body rest : Text} (h : s.rest = body ++ rest) :
    (s.behind body).rest = rest := by
  rw [Cursor.behind, h, List.drop_left]

theorem Cursor.rest_behind_takeWhile (p : Glyph → Bool) (s : Cursor) :
    (s.behind (s.rest.takeWhile p)).rest = s.rest.dropWhile p :=
  Cursor.rest_behind List.takeWhile_append_dropWhile.symm

theorem Cursor.rest_past_le {g : Glyph} {rest : Text} (h : s.rest.length ≤ s.left)
    (hrest : s.rest = g :: rest) : (s.past g rest).rest.length ≤ (s.past g rest).left := by
  rw [hrest, List.length_cons] at h
  exact Nat.le_sub_one_of_lt h

/-- Whether a line starts behind glyphs, nearest first. -/
def startsLine (before : Text) : Bool :=
  before.head?.all (· == .char '\n')

theorem startsLine_cons (g : Glyph) (before : Text) :
    startsLine (g :: before) = decide (g = .char '\n') :=
  rfl

/-! ## Characters one after another -/

/-- A node that reads characters one after another, and then another node. -/
def Node.spelled (tag : List Char) (node : Node) : Node :=
  tag.foldr (fun c node => .seq (.one (.only c.toNat)) node) node

/-- Characters one after another are read where the text has them. -/
theorem run_spelled (tag : List Char) (node : Node) (next : Continuation) (s : Cursor) :
    (Node.spelled tag node).run next s =
      if (tag.map Glyph.char).isPrefixOf s.rest then node.run next (s.behind (tag.map .char))
      else none := by
  induction tag generalizing s with
  | nil => rfl
  | cons c tag ih =>
    show (Node.one (.only c.toNat)).run (fun e => (Node.spelled tag node).run next e) s = _
    rw [Node.run_one, Cursor.step?]
    cases hrest : s.rest with
    | nil => rfl
    | cons g rest =>
      simp only [GlyphClass.contains_only]
      by_cases hg : g = .char c
      · subst hg
        have hbehind := Cursor.behind_past (s := s) (.char c) rest (tag.map .char) hrest
        have hrest' : (s.past (.char c) rest).rest = rest := rfl
        simp only [decide_true, if_true, Option.bind_some, ih, hbehind, hrest', List.map_cons,
          List.isPrefixOf_cons_cons, beq_self_eq_true, Bool.true_and]
      · simp [hg, Ne.symm hg]

/-! ## Greedy repetitions -/

/-- The glyphs of a class that a text starts with. -/
def GlyphClass.firstOf (c : GlyphClass) (text : Text) : Text :=
  text.takeWhile fun g => c.contains g.code

theorem GlyphClass.firstOf_cons {g : Glyph} (hg : c.contains g.code = true) (rest : Text) :
    c.firstOf (g :: rest) = g :: c.firstOf rest :=
  List.takeWhile_cons_of_pos hg

theorem GlyphClass.firstOf_blanks (text : Text) :
    GlyphClass.blanks.firstOf text = text.takeWhile Glyph.isBlank := by
  rw [GlyphClass.firstOf]
  simp only [GlyphClass.contains_blanks]

/-- Among the advances over glyphs of a class only the longest one has no such glyph before it. -/
theorem findSome?_advances {limit : Nat} (h : s.rest.length ≤ limit)
    (hlast : ∀ e, e.rest.head?.any (fun g => c.contains g.code) = true →
      next (s.behind (c.firstOf s.rest)) = none → next e = none) :
    (s.advances c limit).reverse.findSome? next = next (s.behind (c.firstOf s.rest)) := by
  induction limit generalizing s with
  | zero =>
    have hnil : s.rest = [] := List.length_eq_zero_iff.1 (Nat.le_zero.1 h)
    rw [Cursor.advances, hnil, List.reverse_singleton, List.findSome?_singleton]
    rfl
  | succ limit ih =>
    rw [Cursor.advances, Cursor.step?]
    cases hrest : s.rest with
    | nil =>
      simp only [List.reverse_singleton, List.findSome?_singleton]
      rfl
    | cons g rest =>
      cases hg : c.contains g.code with
      | false =>
        have hnone : c.firstOf (g :: rest) = [] :=
          List.takeWhile_cons_of_neg (by simp [hg])
        simp only [hg, hnone, Cursor.behind_nil]
        simp
      | true =>
        have hlength : (s.past g rest).rest.length ≤ limit := by
          rw [hrest, List.length_cons] at h
          exact Nat.le_of_succ_le_succ h
        have hbehind : (s.past g rest).behind (c.firstOf (s.past g rest).rest) =
            s.behind (c.firstOf (g :: rest)) := by
          rw [GlyphClass.firstOf_cons hg]
          exact Cursor.behind_past g rest (c.firstOf rest) hrest
        rw [hrest] at hlast
        have hfind := ih hlength (by rwa [hbehind])
        simp only [hg, if_true, List.reverse_cons, List.findSome?_append, hfind, hbehind,
          List.findSome?_singleton]
        -- the cursor itself has a glyph of the class before it
        cases hnext : next (s.behind (c.firstOf (g :: rest))) with
        | some found => rfl
        | none => simpa using hlast s (by simp [hrest, hg]) hnext

/-- A greedy repetition of a class goes on from its longest advance, if what comes next fails at
all others once it fails there. -/
theorem run_greedy (h : s.rest.length ≤ s.left)
    (hlast : ∀ e, e.rest.head?.any (fun g => c.contains g.code) = true →
      next (s.behind (c.firstOf s.rest)) = none → next e = none) :
    (Node.several c 0 none .greedy).run next s = next (s.behind (c.firstOf s.rest)) := by
  show ((s.advances c s.left).drop 0).reverse.findSome? next = _
  rw [List.drop_zero]
  exact findSome?_advances h hlast

/-- A greedy repetition ends at its longest advance if what comes next succeeds there. -/
theorem run_greedy_of_eq_some (h : s.rest.length ≤ s.left)
    (hnext : next (s.behind (c.firstOf s.rest)) = some e) :
    (Node.several c 0 none .greedy).run next s = some e := by
  rw [run_greedy h, hnext]
  intro _ _ hnone
  rw [hnext] at hnone
  cases hnone

/-- A greedy repetition gives nothing back to a character outside of its class. -/
theorem run_greedy_spelled {d : Char} (hd : c.contains d.toNat = false) (tag : List Char)
    (h : s.rest.length ≤ s.left) :
    (Node.several c 0 none .greedy).run (fun e => (Node.spelled (d :: tag) node).run next e) s =
      (Node.spelled (d :: tag) node).run next (s.behind (c.firstOf s.rest)) := by
  apply run_greedy h
  intro e hhead _
  rw [run_spelled, if_neg]
  rw [List.isPrefixOf_iff_prefix]
  rintro ⟨rest, hrest⟩
  rw [← hrest] at hhead
  have hcontains : c.contains d.toNat = true := hhead
  rw [hd] at hcontains
  cases hcontains

theorem advances_eq_cons (c : GlyphClass) (limit : Nat) (s : Cursor) :
    s.advances c limit = s :: (s.advances c limit).drop 1 := by
  cases limit with
  | zero => rfl
  | succ limit =>
    rw [Cursor.advances]
    split <;> rfl

/-- A greedy repetition takes nothing only where it cannot take one glyph at least. -/
theorem run_greedy_zero :
    (Node.several c 0 none .greedy).run next s =
      ((Node.several c 1 none .greedy).run next s).or (next s) := by
  show ((s.advances c s.left).drop 0).reverse.findSome? next =
    (((s.advances c s.left).drop 1).reverse.findSome? next).or (next s)
  rw [List.drop_zero, advances_eq_cons, List.reverse_cons, List.findSome?_append,
    List.findSome?_singleton]
  rfl

/-- A repetition that reads one glyph of a class at least is over where there is none. -/
theorem run_greedy_one_of_not (h : s.rest.head?.any (fun g => c.contains g.code) = false) :
    (Node.several c 1 none .greedy).run next s = none := by
  have hstep : s.step? c = none := by
    rw [Cursor.step?]
    cases hrest : s.rest with
    | nil => rfl
    | cons g rest =>
      rw [hrest] at h
      exact if_neg (Bool.eq_false_iff.1 h)
  show ((s.advances c s.left).drop 1).reverse.findSome? next = none
  cases s.left with
  | zero => rfl
  | succ limit =>
    rw [Cursor.advances, hstep]
    rfl

/-- A repetition that has read one glyph of a class goes on without need of another one. -/
theorem run_greedy_one {g : Glyph} {rest : Text} (hleft : s.rest.length ≤ s.left)
    (hrest : s.rest = g :: rest) (hg : c.contains g.code = true) :
    (Node.several c 1 none .greedy).run next s =
      (Node.several c 0 none .greedy).run next (s.past g rest) := by
  have hstep : s.step? c = some (s.past g rest) := by
    rw [Cursor.step?, hrest]
    exact if_pos hg
  obtain ⟨limit, hlimit⟩ : ∃ limit, s.left = limit + 1 := by
    rw [hrest, List.length_cons] at hleft
    exact ⟨s.left - 1, by omega⟩
  have hpast : (s.past g rest).left = limit := by
    rw [Cursor.past, hlimit]
    rfl
  show ((s.advances c s.left).drop 1).reverse.findSome? next =
    (((s.past g rest).advances c (s.past g rest).left).drop 0).reverse.findSome? next
  rw [hlimit, hpast, Cursor.advances, hstep]
  rfl

/-! ## What nodes take -/

/-- A node takes something at a place or fails there, as the glyphs before it, nearest first, and
after it say, whatever is to come, as long as that is content with every match that takes
something. -/
structure Node.Takes (node : Node) (taken : Text → Text → Option Text) : Prop where
  run_eq : ∀ (next : Continuation) (s : Cursor), s.rest.length ≤ s.left →
    (∀ e, s.index < e.index → next e = some e) →
    node.run next s = (taken s.before s.rest).map s.behind
  isPrefix : ∀ {before rest body : Text}, taken before rest = some body →
    body ≠ [] ∧ body <+: rest

variable {taken taken' : Text → Text → Option Text}

/-- The second node of a choice is tried where the first one fails. -/
theorem Node.Takes.alt {node' : Node} (h : node.Takes taken) (h' : node'.Takes taken') :
    (Node.alt node node').Takes fun before rest =>
      (taken before rest).or (taken' before rest) := by
  constructor
  · intro next s hleft hnext
    show (node.run next s).orElse (fun _ => node'.run next s) = _
    rw [h.run_eq next s hleft hnext, h'.run_eq next s hleft hnext]
    cases taken s.before s.rest <;> rfl
  · intro before rest body hbody
    rcases Option.or_eq_some_iff.1 hbody with hbody | ⟨-, hbody⟩
    · exact h.isPrefix hbody
    · exact h'.isPrefix hbody

/-- A node that is tried only where a line starts. -/
theorem Node.Takes.lineStart (h : node.Takes taken) :
    (Node.seq (.place .lineStart) node).Takes fun before rest =>
      if startsLine before then taken before rest else none := by
  constructor
  · intro next s hleft hnext
    show (if startsLine s.before then node.run next s else none) = _
    rw [h.run_eq next s hleft hnext]
    split_ifs <;> rfl
  · intro before rest body hbody
    split_ifs at hbody
    exact h.isPrefix hbody

/-- The glyphs of a class that a text starts with, if there are any. -/
def GlyphClass.some? (c : GlyphClass) (text : Text) : Option Text :=
  if text.head?.any (fun g => c.contains g.code) then some (c.firstOf text) else none

/-- A greedy repetition takes all glyphs of its class that come first. -/
theorem takes_several (c : GlyphClass) :
    (Node.several c 1 none .greedy).Takes fun _ rest => c.some? rest := by
  constructor
  · intro next s hleft hnext
    cases hhead : s.rest.head?.any (fun g => c.contains g.code) with
    | false =>
      rw [run_greedy_one_of_not hhead, GlyphClass.some?, hhead]
      rfl
    | true =>
      obtain ⟨g, hg, hcontains⟩ := (Option.any_eq_true _ _).1 hhead
      obtain ⟨rest, hrest⟩ := List.head?_eq_some_iff.1 hg
      have hfirst : c.firstOf s.rest = g :: c.firstOf rest := by
        rw [hrest, GlyphClass.firstOf_cons hcontains]
      -- the first glyph is stepped over, and the others are taken from there
      have hbehind : (s.past g rest).behind (c.firstOf (s.past g rest).rest) =
          s.behind (c.firstOf s.rest) := by
        rw [hfirst]
        exact Cursor.behind_past g rest (c.firstOf rest) hrest
      have hlater : next (s.behind (c.firstOf s.rest)) = some (s.behind (c.firstOf s.rest)) := by
        apply hnext
        rw [hfirst, Cursor.index_behind, List.length_cons]
        omega
      rw [run_greedy_one hleft hrest hcontains, GlyphClass.some?, hhead]
      apply run_greedy_of_eq_some (Cursor.rest_past_le hleft hrest)
      rw [hbehind]
      exact hlater
  · intro before rest body hbody
    rw [GlyphClass.some?] at hbody
    split_ifs at hbody with hhead
    obtain ⟨g, hg, hcontains⟩ := (Option.any_eq_true _ _).1 hhead
    obtain ⟨rest, rfl⟩ := List.head?_eq_some_iff.1 hg
    cases hbody
    refine ⟨?_, List.takeWhile_prefix _⟩
    rw [GlyphClass.firstOf_cons hcontains]
    exact List.cons_ne_nil _ _

/-- A match that takes something is one whether or not it has to. -/
theorem Node.Takes.matchAt?_eq (h : node.Takes taken) (mustMove : Bool)
    (hleft : s.rest.length ≤ s.left) :
    node.matchAt? mustMove s = (taken s.before s.rest).map s.behind := by
  apply h.run_eq _ s hleft
  intro e he
  have hmoves : ¬ e.index = s.index := Nat.ne_of_gt he
  simp [hmoves]

/-! ## Scans -/

/-- A text without what is taken from it, from left to right and without overlap. -/
inductive Scan (taken : Text → Text → Option Text) : Text → Text → Text → Prop
  | nil {before : Text} : Scan taken before [] []
  | skip {before rest kept : Text} {g : Glyph} : taken before (g :: rest) = none →
      Scan taken (g :: before) rest kept → Scan taken before (g :: rest) (g :: kept)
  | hit {before body rest kept : Text} : taken before (body ++ rest) = some body →
      Scan taken (body.reverse ++ before) rest kept → Scan taken before (body ++ rest) kept

/-- A scan leaves out what is taken. -/
theorem Scan.of_some {before body rest kept : Text} (h : Scan taken before (body ++ rest) kept)
    (hbody : taken before (body ++ rest) = some body) (hne : body ≠ []) :
    Scan taken (body.reverse ++ before) rest kept := by
  generalize htext : body ++ rest = text at h
  cases h with
  | nil => exact absurd (List.append_eq_nil_iff.1 htext).1 hne
  | skip hnone _ =>
    rw [htext, hnone] at hbody
    cases hbody
  | hit htaken hscan =>
    rw [htext, htaken] at hbody
    cases hbody
    obtain rfl := List.append_cancel_left htext
    exact hscan

/-- A scan keeps a glyph where nothing is taken. -/
theorem Scan.of_none {before rest kept : Text} {g : Glyph}
    (h : Scan taken before (g :: rest) kept) (hnone : taken before (g :: rest) = none) :
    ∃ kept', kept = g :: kept' ∧ Scan taken (g :: before) rest kept' := by
  generalize htext : g :: rest = text at h
  cases h with
  | nil => cases htext
  | skip _ hscan =>
    cases htext
    exact ⟨_, rfl, hscan⟩
  | hit htaken _ =>
    rw [← htext, hnone] at htaken
    cases htaken

/-- A scan of nothing keeps nothing. -/
theorem Node.Takes.scan_nil (h : node.Takes taken) {before kept : Text}
    (hscan : Scan taken before [] kept) : kept = [] := by
  generalize htext : ([] : Text) = text at hscan
  cases hscan with
  | nil => rfl
  | skip => cases htext
  | hit htaken _ =>
    rw [← htext] at htaken
    obtain ⟨hne, hprefix⟩ := h.isPrefix htaken
    exact absurd (List.prefix_nil.1 hprefix) hne

/-- The leftmost match comes behind glyphs that a scan keeps. If there is none, it keeps all. -/
theorem Node.Takes.findFrom?_cases (h : node.Takes taken) (mustMove : Bool)
    (before passed : Text) (index left : Nat) (rest : Text) (hleft : rest.length ≤ left) :
    (node.findFrom? mustMove before passed index left rest = none ∧
        Scan taken before rest rest) ∨
      ∃ found skipped, node.findFrom? mustMove before passed index left rest = some found ∧
        found.passed = skipped.reverse ++ passed ∧
        found.after.rest.length < rest.length ∧ found.after.rest.length ≤ found.after.left ∧
        ∀ kept, Scan taken found.after.before found.after.rest kept →
          Scan taken before rest (skipped ++ kept) := by
  induction rest generalizing mustMove before passed index left with
  | nil =>
    have hnone : taken before [] = none := by
      rw [Option.eq_none_iff_forall_ne_some]
      intro body hbody
      obtain ⟨hne, hprefix⟩ := h.isPrefix hbody
      exact hne (List.prefix_nil.1 hprefix)
    refine Or.inl ⟨?_, Scan.nil⟩
    rw [Node.findFrom?, h.matchAt?_eq mustMove hleft, hnone]
    rfl
  | cons g rest ih =>
    rw [Node.findFrom?, h.matchAt?_eq mustMove hleft]
    -- nothing is taken here, so the search goes on behind this glyph, or here is the hit
    cases hbody : taken before (g :: rest) with
    | none =>
      have hrest : rest.length ≤ left - 1 := by
        rw [List.length_cons] at hleft
        omega
      simp only [Option.map_none]
      rcases ih false (g :: before) (g :: passed) (index + 1) (left - 1) hrest with
        ⟨hfind, hscan⟩ | ⟨found, skipped, hfind, hpassed, hlt, hle, hscan⟩
      · exact Or.inl ⟨hfind, Scan.skip hbody hscan⟩
      · refine Or.inr ⟨found, g :: skipped, hfind, ?_, ?_, hle, ?_⟩
        · rw [hpassed, List.reverse_cons, List.append_assoc, List.singleton_append]
        · exact Nat.lt_succ_of_lt hlt
        · intro kept hkept
          exact Scan.skip hbody (hscan kept hkept)
    | some body =>
      obtain ⟨hne, behind, hparts⟩ := h.isPrefix hbody
      have hlength : 0 < body.length := List.length_pos_iff.2 hne
      simp only [Option.map_some]
      refine Or.inr ⟨_, [], rfl, rfl, ?_, ?_, ?_⟩
      · rw [Cursor.behind, List.length_drop, List.length_cons]
        omega
      · exact Cursor.rest_behind_le hleft body
      · intro kept hkept
        rw [Cursor.rest_behind hparts.symm] at hkept
        rw [← hparts] at hbody ⊢
        exact Scan.hit hbody hkept

theorem Node.Takes.scan_deleteFrom (h : node.Takes taken) (fuel : Nat) (mustMove : Bool)
    (s : Cursor) (hfuel : s.rest.length < fuel) (hleft : s.rest.length ≤ s.left) :
    Scan taken s.before s.rest (node.deleteFrom fuel mustMove s) := by
  induction fuel generalizing mustMove s with
  | zero => exact absurd hfuel (Nat.not_lt_zero _)
  | succ fuel ih =>
    rw [Node.deleteFrom]
    rcases h.findFrom?_cases mustMove s.before [] s.index s.left s.rest hleft with
      ⟨hfind, hscan⟩ | ⟨found, skipped, hfind, hpassed, hlt, hle, hscan⟩
    · rw [hfind]
      exact hscan
    · rw [hfind]
      simp only [hpassed, List.append_nil, List.reverse_reverse]
      apply hscan
      apply ih
      · omega
      · exact hle

/-- Deleting all matches of a node is scanning the text for what the node takes. -/
theorem Node.Takes.scan_deleteAll (h : node.Takes taken) (text : Text) :
    Scan taken [] text (node.deleteAll text) := by
  apply h.scan_deleteFrom _ false (Cursor.start text)
  · show text.length < 2 * text.length + 2
    omega
  · exact Nat.le_refl text.length

/-- A scan that takes the glyphs of a class keeps all others. -/
theorem Scan.eq_filter {before kept : Text} (h : Scan (fun _ rest => c.some? rest) before text kept) :
    kept = text.filter fun g => !c.contains g.code := by
  induction h with
  | nil => rfl
  | @skip before rest kept g hnone _ ih =>
    have hg : c.contains g.code = false := by
      rw [GlyphClass.some?] at hnone
      split_ifs at hnone with hhead
      simpa using hhead
    rw [List.filter_cons_of_pos (by simp [hg]), ← ih]
  | @hit before body rest kept hbody _ ih =>
    have hall : ∀ g ∈ body, c.contains g.code = true := by
      rw [GlyphClass.some?] at hbody
      split_ifs at hbody
      rw [← Option.some.inj hbody]
      exact List.all_eq_true.1 List.all_takeWhile
    have hnone : (body.filter fun g => !c.contains g.code) = [] := by
      simpa [List.filter_eq_nil_iff] using hall
    rw [List.filter_append, hnone, ← ih]
    rfl

/-- Deleting the runs of a class deletes its glyphs. -/
theorem deleteAll_several (c : GlyphClass) (text : Text) :
    (Node.several c 1 none .greedy).deleteAll text = text.filter fun g => !c.contains g.code :=
  ((takes_several c).scan_deleteAll text).eq_filter

end Pattern

end Minifier
