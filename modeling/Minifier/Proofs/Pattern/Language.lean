import Minifier.Pattern
import Minifier.Proofs.Pattern.Scan

/-!
# What patterns mean

A pattern is found in a text iff it matches at some place of it (`isFoundIn_iff`). What a node
matches there can be said without a matcher: `Node.Reads` gives the bodies that a node reads between
what stands before and after them. The matcher tries bodies in an order of preference and goes back
when what is to come fails, so it succeeds iff what is to come succeeds behind one of the bodies
(`Node.agrees_of_isPlain`). This holds of plain nodes, in which all repetitions are greedy and
nothing is captured or looked at; an item of a repetition that takes nothing is not tried again, but
it is not needed either.
-/

set_option autoImplicit false

namespace Minifier

namespace Pattern

variable {s : Cursor} {c : GlyphClass} {next : Continuation} {node : Node}
  {before body after text : Text}

/-! ## Places -/

/-- A place of a text, between what stands before and after it. -/
def Cursor.between (before after : Text) : Cursor :=
  ⟨before.reverse, before.length, after, after.length, []⟩

/-- Whether a pattern matches at a place of a text. -/
def MatchesAt (pattern : Pattern) (before after : Text) : Prop :=
  (pattern.node.run some (.between before after)).isSome

theorem isSome_findFrom?_iff (node : Node) (front passed rest : Text) :
    (node.findFrom? false front.reverse passed front.length rest.length rest).isSome ↔
      ∃ skipped after, rest = skipped ++ after ∧
        (node.run some (.between (front ++ skipped) after)).isSome := by
  have hmatch : ∀ s : Cursor, node.matchAt? false s = node.run some s := by
    intro s
    simp only [Node.matchAt?, Bool.false_and, Bool.false_eq_true, if_false]
  induction rest generalizing front passed with
  | nil =>
    rw [Node.findFrom?, hmatch, Option.isSome_map]
    constructor
    · intro h
      exact ⟨[], [], rfl, by rwa [List.append_nil]⟩
    · rintro ⟨skipped, after, hrest, h⟩
      obtain ⟨rfl, rfl⟩ := List.append_eq_nil_iff.1 hrest.symm
      rwa [List.append_nil] at h
  | cons g rest ih =>
    have hlater := ih (front ++ [g]) (g :: passed)
    rw [List.reverse_append, List.reverse_singleton, List.singleton_append, List.length_append,
      List.length_singleton] at hlater
    rw [Node.findFrom?, hmatch]
    -- a match here skips nothing; without one the search goes on behind this glyph
    cases hfound :
        node.run some ⟨front.reverse, front.length, g :: rest, (g :: rest).length, []⟩ with
    | some e =>
      refine iff_of_true rfl ⟨[], g :: rest, rfl, ?_⟩
      rw [List.append_nil, Cursor.between, hfound]
      rfl
    | none =>
      refine hlater.trans ⟨?_, ?_⟩
      · rintro ⟨skipped, after, rfl, h⟩
        exact ⟨g :: skipped, after, rfl, by rwa [List.append_assoc] at h⟩
      · rintro ⟨skipped, after, hrest, h⟩
        cases skipped with
        | nil =>
          rw [List.nil_append] at hrest
          rw [List.append_nil, ← hrest, Cursor.between, hfound] at h
          cases h
        | cons g' skipped =>
          obtain ⟨rfl, rfl⟩ := List.cons.inj hrest
          exact ⟨skipped, after, rfl, by rwa [List.append_assoc]⟩

/-- A pattern is found in a text iff it matches at some place of it. -/
theorem isFoundIn_iff {pattern : Pattern} :
    pattern.isFoundIn text ↔
      ∃ before after, text = before ++ after ∧ pattern.MatchesAt before after :=
  isSome_findFrom?_iff pattern.node [] [] text

/-! ## Bodies -/

/-- A number of bodies that are read one behind the other. -/
inductive ReadsTimes (reads : Text → Text → Text → Prop) : Nat → Text → Text → Text → Prop
  | zero {before after : Text} : ReadsTimes reads 0 before [] after
  | succ {n : Nat} {before body body' after : Text} : reads before body (body' ++ after) →
      ReadsTimes reads n (body.reverse ++ before) body' after →
      ReadsTimes reads (n + 1) before (body ++ body') after

/-- A node reads a body between what stands before it, nearest first, and what stands after it. -/
def Node.Reads : Node → Text → Text → Text → Prop
  | .empty, _, body, _ => body = []
  | .one c, _, body, _ => ∃ g, body = [g] ∧ c.contains g.code = true
  | .place spot, before, body, after =>
    body = [] ∧ (Cursor.between before.reverse after).isAt spot = true
  | .seq first second, before, body, after => ∃ front back, body = front ++ back ∧
      first.Reads before front (back ++ after) ∧ second.Reads (front.reverse ++ before) back after
  | .alt first second, before, body, after =>
    first.Reads before body after ∨ second.Reads before body after
  | .several c least most _, _, body, _ => (∀ g ∈ body, c.contains g.code = true) ∧
      least ≤ body.length ∧ ∀ limit ∈ most, body.length ≤ limit
  | .repeated least most _ item, before, body, after => ∃ n, least ≤ n ∧
      (∀ limit ∈ most, n ≤ limit) ∧ ReadsTimes item.Reads n before body after
  | _, _, _, _ => False

/-- A node in which all repetitions are greedy, and their bounds in order, and which neither
captures nor looks at what it does not read. -/
def Node.isPlain : Node → Bool
  | .empty => true
  | .one _ => true
  | .place _ => true
  | .seq first second => first.isPlain && second.isPlain
  | .alt first second => first.isPlain && second.isPlain
  | .several _ _ _ greed => greed == .greedy
  | .repeated least most greed item => greed == .greedy && most.all (least ≤ ·) && item.isPlain
  | _ => false

variable {reads : Text → Text → Text → Prop} {n m : Nat}

theorem readsTimes_zero_iff : ReadsTimes reads 0 before body after ↔ body = [] := by
  constructor
  · intro h
    cases h
    rfl
  · rintro rfl
    exact .zero

theorem readsTimes_succ_iff :
    ReadsTimes reads (n + 1) before body after ↔
      ∃ front back, body = front ++ back ∧ reads before front (back ++ after) ∧
        ReadsTimes reads n (front.reverse ++ before) back after := by
  constructor
  · intro h
    cases h with
    | succ hfront hback => exact ⟨_, _, rfl, hfront, hback⟩
  · rintro ⟨front, back, rfl, hfront, hback⟩
    exact .succ hfront hback

/-- Bodies can be read in two portions. -/
theorem readsTimes_add_iff :
    ReadsTimes reads (m + n) before body after ↔
      ∃ front back, body = front ++ back ∧ ReadsTimes reads m before front (back ++ after) ∧
        ReadsTimes reads n (front.reverse ++ before) back after := by
  induction m generalizing before body with
  | zero =>
    rw [Nat.zero_add]
    constructor
    · intro h
      exact ⟨[], body, rfl, .zero, h⟩
    · rintro ⟨front, back, rfl, hfront, hback⟩
      obtain rfl := readsTimes_zero_iff.1 hfront
      exact hback
  | succ m ih =>
    rw [Nat.add_right_comm, readsTimes_succ_iff]
    constructor
    · rintro ⟨front, rest, rfl, hfront, hrest⟩
      -- the first reading of the rest is the end of the front
      obtain ⟨middle, back, rfl, hmiddle, hback⟩ := ih.1 hrest
      refine ⟨front ++ middle, back, (List.append_assoc _ _ _).symm, ?_, ?_⟩
      · rw [List.append_assoc] at hfront
        exact .succ hfront hmiddle
      · rwa [List.reverse_append, List.append_assoc]
    · rintro ⟨front, back, rfl, hfront, hback⟩
      obtain ⟨first, middle, rfl, hfirst, hmiddle⟩ := readsTimes_succ_iff.1 hfront
      rw [List.reverse_append, List.append_assoc] at hback
      refine ⟨first, middle ++ back, List.append_assoc _ _ _, ?_,
        ih.2 ⟨middle, back, rfl, hmiddle, hback⟩⟩
      rwa [List.append_assoc]

/-- What is read a number of times consists of glyphs that can be read once. -/
theorem ReadsTimes.forall_mem {reads : Text → Text → Text → Prop} {p : Glyph → Prop} {n : Nat}
    (h : ReadsTimes reads n before body after)
    (hreads : ∀ {before body after : Text}, reads before body after → ∀ g ∈ body, p g) :
    ∀ g ∈ body, p g := by
  induction h with
  | zero => exact List.forall_mem_nil p
  | succ hfront _ ih => exact List.forall_mem_append.2 ⟨hreads hfront, ih⟩

/-! ## Classes -/

theorem Cursor.before_behind (text : Text) (s : Cursor) :
    (s.behind text).before = text.reverse ++ s.before :=
  rfl

theorem Cursor.getElem?_advances_zero {limit : Nat} : (s.advances c limit)[0]? = some s := by
  cases limit with
  | zero => rfl
  | succ limit =>
    rw [Cursor.advances]
    cases s.step? c <;> rfl

/-- The cursor behind a number of glyphs of a class. -/
theorem Cursor.getElem?_advances_iff {e : Cursor} {limit k : Nat} :
    (s.advances c limit)[k]? = some e ↔
      ∃ body after, s.rest = body ++ after ∧ (∀ g ∈ body, c.contains g.code = true) ∧
        body.length = k ∧ k ≤ limit ∧ e = s.behind body := by
  induction k generalizing s limit with
  | zero =>
    rw [Cursor.getElem?_advances_zero, Option.some.injEq]
    constructor
    · rintro rfl
      exact ⟨[], s.rest, rfl, List.forall_mem_nil _, rfl, Nat.zero_le _, rfl⟩
    · rintro ⟨body, after, -, -, hbody, -, rfl⟩
      obtain rfl := List.length_eq_zero_iff.1 hbody
      rfl
  | succ k ih =>
    -- there are cursors behind this one iff a glyph of the class stands here
    have hmore : (s.advances c limit)[k + 1]? = some e ↔ ∃ g rest, s.rest = g :: rest ∧
        c.contains g.code = true ∧ 0 < limit ∧
        ((s.past g rest).advances c (limit - 1))[k]? = some e := by
      cases limit with
      | zero => simp [Cursor.advances]
      | succ limit =>
        rw [Cursor.advances, Cursor.step?]
        cases s.rest with
        | nil => simp
        | cons g rest =>
          by_cases hg : c.contains g.code = true <;> simp [hg]
    rw [hmore]
    constructor
    · rintro ⟨g, rest, hrest, hg, hlimit, he⟩
      obtain ⟨body, after, hbody, hall, rfl, hle, rfl⟩ := ih.1 he
      refine ⟨g :: body, after, ?_, List.forall_mem_cons.2 ⟨hg, hall⟩, rfl, ?_,
        Cursor.behind_past g rest body hrest⟩
      · exact hrest.trans (congrArg (g :: ·) hbody)
      · exact Nat.add_le_of_le_sub hlimit hle
    · rintro ⟨body, after, hrest, hall, hlength, hlimit, rfl⟩
      obtain ⟨g, body, rfl⟩ := List.exists_cons_of_length_eq_add_one hlength
      rw [List.forall_mem_cons] at hall
      refine ⟨g, body ++ after, hrest, hall.1, Nat.zero_lt_of_lt hlimit,
        ih.2 ⟨body, after, rfl, hall.2, Nat.succ.inj hlength, Nat.le_sub_one_of_lt hlimit, ?_⟩⟩
      exact (Cursor.behind_past g _ body hrest).symm

/-- The cursors behind glyphs of a class, of which there are as many as asked for. -/
theorem mem_drop_advances_iff {e : Cursor} {least limit : Nat} :
    e ∈ (s.advances c limit).drop least ↔
      ∃ body after, s.rest = body ++ after ∧ (∀ g ∈ body, c.contains g.code = true) ∧
        least ≤ body.length ∧ body.length ≤ limit ∧ e = s.behind body := by
  simp only [List.mem_iff_getElem?, List.getElem?_drop, Cursor.getElem?_advances_iff]
  constructor
  · rintro ⟨k, body, after, hrest, hall, hlength, hlimit, rfl⟩
    rw [← hlength] at hlimit
    exact ⟨body, after, hrest, hall, hlength ▸ Nat.le_add_right _ _, hlimit, rfl⟩
  · rintro ⟨body, after, hrest, hall, hleast, hlimit, rfl⟩
    obtain ⟨k, hlength⟩ := Nat.exists_eq_add_of_le hleast
    exact ⟨k, body, after, hrest, hall, hlength, hlength ▸ hlimit, rfl⟩

/-! ## Nodes -/

theorem isSome_orElse_iff {first : Option Cursor} {second : Unit → Option Cursor} :
    (first.orElse second).isSome ↔ first.isSome ∨ (second ()).isSome := by
  cases first with
  | none => exact (or_iff_right Bool.false_ne_true).symm
  | some found => exact iff_of_true rfl (Or.inl rfl)

/-- The matcher reads a plain node at a cursor iff some body can be read there behind which it goes
on. -/
def Node.Agrees (node : Node) : Prop :=
  ∀ (next : Continuation) (s : Cursor), s.rest.length ≤ s.left →
    ((node.run next s).isSome ↔ ∃ body after, s.rest = body ++ after ∧
      node.Reads s.before body after ∧ (next (s.behind body)).isSome)

theorem agrees_empty : Node.empty.Agrees := by
  intro next s _
  constructor
  · intro h
    exact ⟨[], s.rest, rfl, rfl, h⟩
  · rintro ⟨body, after, -, rfl, h⟩
    exact h

theorem agrees_one (c : GlyphClass) : (Node.one c).Agrees := by
  intro next s _
  rw [Node.run_one, Cursor.step?]
  constructor
  · intro h
    cases hrest : s.rest with
    | nil => simp [hrest] at h
    | cons g rest =>
      simp only [hrest] at h
      split_ifs at h with hg
      · exact ⟨[g], rest, rfl, ⟨g, rfl, hg⟩, by rwa [← Cursor.behind_past g rest [] hrest]⟩
      · simp at h
  · rintro ⟨body, after, hrest, ⟨g, rfl, hg⟩, h⟩
    rw [List.singleton_append] at hrest
    rw [← Cursor.behind_past g after [] hrest] at h
    simp only [hrest, hg, if_true]
    exact h

theorem agrees_place (spot : Anchoring) : (Node.place spot).Agrees := by
  intro next s _
  have hplace : (Cursor.between s.before.reverse s.rest).isAt spot = s.isAt spot := by
    cases spot <;> simp [Cursor.isAt, Cursor.between]
  rw [Node.run_place, ← hplace]
  constructor
  · intro h
    split_ifs at h with hat
    · exact ⟨[], s.rest, rfl, ⟨rfl, hat⟩, h⟩
    · simp at h
  · rintro ⟨body, after, hrest, ⟨rfl, hat⟩, h⟩
    rw [List.nil_append] at hrest
    rwa [hrest, if_pos hat]

variable {first second item : Node}

theorem agrees_seq (hfirst : first.Agrees) (hsecond : second.Agrees) :
    (Node.seq first second).Agrees := by
  intro next s hleft
  show (first.run (fun e => second.run next e) s).isSome ↔ _
  rw [hfirst _ s hleft]
  constructor
  · rintro ⟨front, rest, hrest, hfront, h⟩
    obtain ⟨back, after, hback, hreads, h⟩ :=
      (hsecond next _ (Cursor.rest_behind_le hleft front)).1 h
    rw [Cursor.rest_behind hrest] at hback
    subst hback
    rw [Cursor.behind_behind] at h
    refine ⟨front ++ back, after, ?_, ⟨front, back, rfl, hfront, hreads⟩, h⟩
    rw [hrest, List.append_assoc]
  · rintro ⟨body, after, hrest, ⟨front, back, rfl, hfront, hback⟩, h⟩
    rw [List.append_assoc] at hrest
    rw [← Cursor.behind_behind] at h
    exact ⟨front, back ++ after, hrest, hfront,
      (hsecond next _ (Cursor.rest_behind_le hleft front)).2
        ⟨back, after, Cursor.rest_behind hrest, hback, h⟩⟩

theorem agrees_alt (hfirst : first.Agrees) (hsecond : second.Agrees) :
    (Node.alt first second).Agrees := by
  intro next s hleft
  show ((first.run next s).orElse fun _ => second.run next s).isSome ↔ _
  rw [isSome_orElse_iff, hfirst _ s hleft, hsecond _ s hleft]
  constructor
  · rintro (⟨body, after, hrest, hbody, h⟩ | ⟨body, after, hrest, hbody, h⟩)
    · exact ⟨body, after, hrest, Or.inl hbody, h⟩
    · exact ⟨body, after, hrest, Or.inr hbody, h⟩
  · rintro ⟨body, after, hrest, hbody | hbody, h⟩
    · exact Or.inl ⟨body, after, hrest, hbody, h⟩
    · exact Or.inr ⟨body, after, hrest, hbody, h⟩

theorem agrees_several (c : GlyphClass) (least : Nat) (most : Option Nat) :
    (Node.several c least most .greedy).Agrees := by
  intro next s hleft
  have hrun : (Node.several c least most .greedy).run next s =
      ((s.advances c (most.elim s.left (min · s.left))).drop least).reverse.findSome? next := by
    cases most <;> rfl
  rw [hrun, List.findSome?_isSome_iff]
  constructor
  · rintro ⟨e, he, h⟩
    obtain ⟨body, after, hrest, hall, hleast, hlimit, rfl⟩ :=
      mem_drop_advances_iff.1 (List.mem_reverse.1 he)
    refine ⟨body, after, hrest, ⟨hall, hleast, ?_⟩, h⟩
    rintro limit rfl
    exact Nat.le_trans hlimit (Nat.min_le_left _ _)
  · rintro ⟨body, after, hrest, ⟨hall, hleast, hmost⟩, h⟩
    refine ⟨_, List.mem_reverse.2 (mem_drop_advances_iff.2
      ⟨body, after, hrest, hall, hleast, ?_, rfl⟩), h⟩
    have hbody : body.length ≤ s.left := by
      rw [hrest, List.length_append] at hleft
      exact Nat.le_trans (Nat.le_add_right _ _) hleft
    cases most with
    | none => exact hbody
    | some limit => exact Nat.le_min.2 ⟨hmost limit rfl, hbody⟩

/-! ## Repetitions -/

/-- An item that is read a number of times. -/
theorem isSome_exactly_iff (hitem : item.Agrees) (next : Continuation) (count : Nat) (s : Cursor)
    (hleft : s.rest.length ≤ s.left) :
    (exactly (fun k s => item.run k s) next count s).isSome ↔ ∃ body after, s.rest = body ++ after ∧
      ReadsTimes item.Reads count s.before body after ∧ (next (s.behind body)).isSome := by
  induction count generalizing s with
  | zero =>
    constructor
    · intro h
      exact ⟨[], s.rest, rfl, .zero, h⟩
    · rintro ⟨body, after, -, hbody, h⟩
      obtain rfl := readsTimes_zero_iff.1 hbody
      exact h
  | succ count ih =>
    -- one item is read first, and the count goes on behind it
    rw [exactly, hitem _ s hleft]
    constructor
    · rintro ⟨front, rest, hrest, hfront, h⟩
      obtain ⟨back, after, hback, hreads, h⟩ :=
        (ih (s.behind front) (Cursor.rest_behind_le hleft front)).1 h
      rw [Cursor.rest_behind hrest] at hback
      subst hback
      rw [Cursor.behind_behind] at h
      refine ⟨front ++ back, after, ?_, .succ hfront hreads, h⟩
      rw [hrest, List.append_assoc]
    · rintro ⟨body, after, hrest, hbody, h⟩
      obtain ⟨front, back, rfl, hfront, hback⟩ := readsTimes_succ_iff.1 hbody
      rw [List.append_assoc] at hrest
      refine ⟨front, back ++ after, hrest, hfront,
        (ih (s.behind front) (Cursor.rest_behind_le hleft front)).2
          ⟨back, after, Cursor.rest_behind hrest, hback, ?_⟩⟩
      rwa [Cursor.behind_behind]

/-- What is read greedily up to a number of times is read some number of times. -/
theorem exists_of_isSome_upTo (hitem : item.Agrees) {next : Continuation} {limit : Nat}
    {last : Option Nat} {s : Cursor} (hleft : s.rest.length ≤ s.left)
    (h : (upTo (fun k s => item.run k s) next true limit last s).isSome) :
    ∃ n body after, n ≤ limit ∧ s.rest = body ++ after ∧
      ReadsTimes item.Reads n s.before body after ∧ (next (s.behind body)).isSome := by
  have hstop : (next s).isSome → ∃ n body after, n ≤ limit ∧ s.rest = body ++ after ∧
      ReadsTimes item.Reads n s.before body after ∧ (next (s.behind body)).isSome :=
    fun h => ⟨0, [], s.rest, Nat.zero_le _, rfl, .zero, h⟩
  induction limit generalizing last s with
  | zero => exact hstop h
  | succ limit ih =>
    rw [upTo] at h
    split at h
    · exact hstop h
    · obtain ⟨e, he⟩ := Option.isSome_iff_exists.1 h
      -- one more item is read and the rest goes on, or reading stops here
      rcases eq_some_of_orElse he with he | he
      · obtain ⟨front, rest, hrest, hfront, h⟩ :=
          (hitem _ s hleft).1 (Option.isSome_iff_exists.2 ⟨e, he⟩)
        obtain ⟨n, back, after, hn, hback, hreads, h⟩ :=
          ih (Cursor.rest_behind_le hleft front) h
            (fun h => ⟨0, [], _, Nat.zero_le _, rfl, .zero, h⟩)
        rw [Cursor.rest_behind hrest] at hback
        subst hback
        rw [Cursor.behind_behind] at h
        refine ⟨n + 1, front ++ back, after, Nat.succ_le_succ hn, ?_, .succ hfront hreads, h⟩
        rw [hrest, List.append_assoc]
      · exact hstop (Option.isSome_iff_exists.2 ⟨e, he⟩)

/-- Greedy repetition finds a way to read items if there is one: items that take nothing can be
left out, and of the others there are no more than glyphs. -/
theorem isSome_upTo_of_readsTimes (hitem : item.Agrees) {next : Continuation} {n limit : Nat}
    {last : Option Nat} {s : Cursor} {body after : Text} (hleft : s.rest.length ≤ s.left)
    (hrest : s.rest = body ++ after) (hbody : ReadsTimes item.Reads n s.before body after)
    (hlimit : n ≤ limit ∨ s.rest.length < limit) (hlast : last ≠ some s.index ∨ body = [])
    (hnext : (next (s.behind body)).isSome) :
    (upTo (fun k s => item.run k s) next true limit last s).isSome := by
  generalize hbefore : s.before = before at hbody
  induction hbody generalizing s limit last with
  | zero =>
    cases limit with
    | zero => exact hnext
    | succ limit =>
      rw [upTo]
      split
      · exact hnext
      · exact isSome_orElse_iff.2 (Or.inr hnext)
  | @succ n before front back after hfront hback ih =>
    rw [List.append_assoc] at hrest
    rw [← Cursor.behind_behind] at hnext
    cases front with
    | nil =>
      -- an item that takes nothing is left out
      refine ih hleft hrest ?_ ?_ hnext hbefore
      · exact hlimit.imp_left Nat.le_of_succ_le
      · exact hlast
    | cons g front =>
      have hshorter : (s.behind (g :: front)).rest.length < s.rest.length := by
        have hlength : (g :: front ++ (back ++ after)).length =
            (g :: front).length + (back ++ after).length := List.length_append
        rw [Cursor.rest_behind hrest, hrest, hlength, List.length_cons]
        omega
      obtain ⟨limit, rfl⟩ : ∃ limit', limit = limit' + 1 :=
        Nat.exists_eq_succ_of_ne_zero (by omega)
      have hmoved : last ≠ some s.index := hlast.resolve_right (by simp)
      rw [upTo, if_neg hmoved]
      refine isSome_orElse_iff.2 (Or.inl ((hitem _ s hleft).2
        ⟨g :: front, back ++ after, hrest, hbefore ▸ hfront, ?_⟩))
      refine ih (Cursor.rest_behind_le hleft _) (Cursor.rest_behind hrest) ?_ ?_ hnext ?_
      · omega
      · refine Or.inl fun hsame => ?_
        rw [Option.some.injEq, Cursor.index_behind, List.length_cons] at hsame
        omega
      · rw [Cursor.before_behind, hbefore]

theorem agrees_repeated (hitem : item.Agrees) {least : Nat} {most : Option Nat}
    (hbounds : ∀ limit ∈ most, least ≤ limit) : (Node.repeated least most .greedy item).Agrees := by
  intro next s hleft
  show (exactly (fun k s => item.run k s) (fun e => upTo (fun k s => item.run k s) next true
    (spare least most e.left) none e) least s).isSome ↔ _
  -- the least number is read exactly, and then as many as are left of the most
  rw [isSome_exactly_iff hitem _ _ _ hleft]
  constructor
  · rintro ⟨front, rest, hrest, hfront, h⟩
    obtain ⟨n, back, after, hn, hback, hreads, h⟩ :=
      exists_of_isSome_upTo hitem (Cursor.rest_behind_le hleft front) h
    rw [Cursor.rest_behind hrest] at hback
    subst hback
    rw [Cursor.behind_behind] at h
    refine ⟨front ++ back, after, ?_, ⟨least + n, Nat.le_add_right _ _, ?_, ?_⟩, h⟩
    · rw [hrest, List.append_assoc]
    · intro limit hlimit
      have hle := hbounds limit hlimit
      rw [Option.mem_def] at hlimit
      rw [hlimit, spare] at hn
      omega
    · exact readsTimes_add_iff.2 ⟨front, back, rfl, hfront, hreads⟩
  · rintro ⟨body, after, hrest, ⟨count, hleast, hmost, hbody⟩, h⟩
    obtain ⟨n, rfl⟩ := Nat.exists_eq_add_of_le hleast
    obtain ⟨front, back, rfl, hfront, hback⟩ := readsTimes_add_iff.1 hbody
    rw [List.append_assoc] at hrest
    rw [← Cursor.behind_behind] at h
    refine ⟨front, back ++ after, hrest, hfront,
      isSome_upTo_of_readsTimes hitem (Cursor.rest_behind_le hleft front)
        (Cursor.rest_behind hrest) hback ?_ (Or.inl (by simp)) h⟩
    have hcount := Cursor.rest_behind_le hleft front
    cases most with
    | none => exact Or.inr (Nat.lt_succ_of_le hcount)
    | some limit =>
      have hlimit := hmost limit rfl
      rw [spare]
      omega

/-! ## Plain nodes -/

/-- The matcher reads plain nodes as they say. -/
theorem Node.agrees_of_isPlain (hplain : node.isPlain = true) : node.Agrees := by
  induction node with
  | empty => exact agrees_empty
  | one c => exact agrees_one c
  | place spot => exact agrees_place spot
  | seq first second ih ih' =>
    rw [Node.isPlain, Bool.and_eq_true] at hplain
    exact agrees_seq (ih hplain.1) (ih' hplain.2)
  | alt first second ih ih' =>
    rw [Node.isPlain, Bool.and_eq_true] at hplain
    exact agrees_alt (ih hplain.1) (ih' hplain.2)
  | several c least most greed =>
    rw [Node.isPlain, beq_iff_eq] at hplain
    exact hplain ▸ agrees_several c least most
  | repeated least most greed item ih =>
    simp only [Node.isPlain, Bool.and_eq_true, beq_iff_eq] at hplain
    obtain ⟨⟨rfl, hbounds⟩, hitem⟩ := hplain
    refine agrees_repeated (ih hitem) fun limit hlimit => ?_
    rw [Option.mem_def] at hlimit
    simpa [hlimit] using hbounds
  | capture | atomic | ahead | behind | backref | conditional => cases hplain

/-- A plain pattern is found in a text iff its node reads a part of the text. -/
theorem isFoundIn_iff_reads {pattern : Pattern} (hplain : pattern.node.isPlain = true) :
    pattern.isFoundIn text ↔ ∃ before body after, text = before ++ (body ++ after) ∧
      pattern.node.Reads before.reverse body after := by
  rw [isFoundIn_iff]
  constructor
  · rintro ⟨before, rest, rfl, h⟩
    obtain ⟨body, after, rfl, hbody, -⟩ :=
      (Node.agrees_of_isPlain hplain some (.between before rest) (Nat.le_refl _)).1 h
    exact ⟨before, body, after, rfl, hbody⟩
  · rintro ⟨before, body, after, rfl, hbody⟩
    refine ⟨before, body ++ after, rfl, ?_⟩
    exact (Node.agrees_of_isPlain hplain some (.between before (body ++ after)) (Nat.le_refl _)).2
      ⟨body, after, rfl, hbody, rfl⟩

/-! ## Tags -/

theorem Node.isPlain_spelled (tag : List Char) (node : Node) :
    (Node.spelled tag node).isPlain = node.isPlain := by
  induction tag with
  | nil => rfl
  | cons c tag ih =>
    show (true && (Node.spelled tag node).isPlain) = node.isPlain
    rw [ih, Bool.true_and]

/-- Characters one after another are read where they stand. -/
theorem reads_spelled_iff {tag : List Char} :
    (Node.spelled tag node).Reads before body after ↔ ∃ rest, body = tag.map Glyph.char ++ rest ∧
      node.Reads ((tag.map Glyph.char).reverse ++ before) rest after := by
  induction tag generalizing before body with
  | nil =>
    constructor
    · exact fun h => ⟨body, rfl, h⟩
    · rintro ⟨rest, rfl, h⟩
      exact h
  | cons c tag ih =>
    rw [List.map_cons, List.reverse_cons]
    constructor
    · rintro ⟨front, back, rfl, ⟨g, rfl, hg⟩, hback⟩
      obtain ⟨rest, rfl, hrest⟩ := ih.1 hback
      rw [GlyphClass.contains_only, decide_eq_true_eq] at hg
      subst hg
      exact ⟨rest, rfl, by rwa [List.append_assoc]⟩
    · rintro ⟨rest, rfl, h⟩
      refine ⟨[.char c], tag.map Glyph.char ++ rest, rfl, ⟨.char c, rfl, ?_⟩, ih.2 ⟨rest, rfl, ?_⟩⟩
      · rw [GlyphClass.contains_only, decide_eq_true_eq]
      · rwa [List.append_assoc] at h

end Pattern

end Minifier
