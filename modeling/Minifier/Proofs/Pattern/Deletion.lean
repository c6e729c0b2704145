import Mathlib.Data.List.Basic
import Minifier.RuleSet.Filter

/-!
# What deleting leaves

A match stays in the text that it is searched in: every cursor that a node hands on stands between
the same glyphs as the one that it was given (`Pattern.stays_run`). So deleting the matches of
patterns leaves glyphs of the text and makes no new ones (`cleaned_subset`).
-/

set_option autoImplicit false

namespace Minifier

namespace Pattern

variable {s e : Cursor} {c : GlyphClass} {next : Continuation} {node : Node} {g : Glyph}

/-- The text that a cursor stands in. -/
def Cursor.text (s : Cursor) : Text :=
  s.before.reverse ++ s.rest

/-- What is to come ends in the text in which it begins. -/
def Stays (next : Continuation) : Prop :=
  ∀ ⦃s e : Cursor⦄, next s = some e → e.text = s.text

/-- What a choice succeeds with is what one of its sides succeeds with. -/
theorem eq_some_of_orElse {first : Option Cursor} {second : Unit → Option Cursor}
    (h : first.orElse second = some e) : first = some e ∨ second () = some e := by
  cases first with
  | none => exact .inr h
  | some found => exact .inl h

theorem stays_some : Stays some := by
  intro s e h
  cases h
  rfl

/-! ## Moves -/

theorem Cursor.text_past (g : Glyph) (rest : Text) (s : Cursor) :
    (s.past g rest).text = s.before.reverse ++ g :: rest := by
  simp [Cursor.text, Cursor.past]

theorem Cursor.text_of_step? (h : s.step? c = some e) : e.text = s.text := by
  rw [Cursor.step?] at h
  split at h
  · cases h
  · next g rest hrest =>
    split at h
    · cases h
      rw [Cursor.text_past, Cursor.text, hrest]
    · cases h


theorem Cursor.text_of_mem_advances {limit : Nat} (h : e ∈ s.advances c limit) :
    e.text = s.text := by
  induction limit generalizing s with
  | zero =>
    obtain rfl := List.mem_singleton.1 h
    rfl
  | succ limit ih =>
    rw [Cursor.advances] at h
    split at h
    · next next hstep =>
      rcases List.mem_cons.1 h with rfl | h
      · rfl
      · exact (ih h).trans (Cursor.text_of_step? hstep)
    · obtain rfl := List.mem_singleton.1 h
      rfl

theorem Cursor.text_of_steps? {count : Nat} (h : s.steps? c count = some e) : e.text = s.text := by
  induction count generalizing s with
  | zero =>
    cases h
    rfl
  | succ count ih =>
    obtain ⟨mid, hstep, hrest⟩ := Option.bind_eq_some_iff.1 h
    exact (ih hrest).trans (Cursor.text_of_step? hstep)

theorem Cursor.text_of_follow? {folding : Folding} {text : Text}
    (h : s.follow? folding text = some e) : e.text = s.text := by
  induction text generalizing s with
  | nil =>
    cases h
    rfl
  | cons g text ih =>
    rw [Cursor.follow?] at h
    split at h
    · cases h
    · next g' rest hrest =>
      split at h
      · rw [ih h, Cursor.text_past, Cursor.text, hrest]
      · cases h

/-! ## Repetitions -/

theorem stays_fewest (hnext : Stays next) (c : GlyphClass) (limit : Nat) :
    Stays (Cursor.fewest c next limit) := by
  induction limit with
  | zero => exact hnext
  | succ limit ih =>
    intro s e h
    rcases eq_some_of_orElse h with h | h
    · exact hnext h
    · obtain ⟨mid, hstep, hrest⟩ := Option.bind_eq_some_iff.1 h
      exact (ih hrest).trans (Cursor.text_of_step? hstep)

/-- An item that stays in its text whenever what follows does. -/
def StaysItem (item : Continuation → Continuation) : Prop :=
  ∀ ⦃next : Continuation⦄, Stays next → Stays (item next)

variable {item : Continuation → Continuation}

theorem stays_exactly (hitem : StaysItem item) (hnext : Stays next) (count : Nat) :
    Stays (exactly item next count) := by
  induction count with
  | zero => exact hnext
  | succ count ih => exact hitem ih

theorem stays_upTo (hitem : StaysItem item) (hnext : Stays next) (greedy : Bool) (limit : Nat)
    (last : Option Nat) : Stays (upTo item next greedy limit last) := by
  induction limit generalizing last with
  | zero => exact hnext
  | succ limit ih =>
    intro s e h
    rw [upTo] at h
    split at h
    · exact hnext h
    · split at h
      · rcases eq_some_of_orElse h with h | h
        · exact hitem (ih _) h
        · exact hnext h
      · rcases eq_some_of_orElse h with h | h
        · exact hnext h
        · exact hitem (ih _) h

theorem text_exhaust (hitem : StaysItem item) (limit : Nat) (last : Option Nat) (s : Cursor) :
    (exhaust item limit last s).text = s.text := by
  induction limit generalizing last s with
  | zero => rfl
  | succ limit ih =>
    rw [exhaust]
    split
    · rfl
    · split
      · next e he => rw [ih, hitem stays_some he]
      · rfl

/-! ## Nodes step by step -/

theorem Node.run_one : (Node.one c).run next s = (s.step? c).bind next := by
  rw [Node.run.eq_def]
  dsimp only
  cases s.step? c <;> rfl

theorem Node.run_place (spot : Anchoring) :
    (Node.place spot).run next s = if s.isAt spot then next s else none :=
  rfl

theorem Node.run_atomic : (Node.atomic node).run next s = (node.run some s).bind next := by
  rw [Node.run.eq_def]
  dsimp only
  cases node.run some s <;> rfl

/-- A look ahead goes on where it stands; only one that is not negated keeps what it captures. -/
theorem Node.run_ahead (negated : Bool) :
    (Node.ahead negated node).run next s =
      (node.run some s).elim (if negated then next s else none)
        fun e => if negated then none else next { s with groups := e.groups } := by
  rw [Node.run.eq_def]
  dsimp only
  cases node.run some s <;> rfl

theorem Node.run_behind (width : Nat) (negated : Bool) :
    (Node.behind width negated node).run next s =
      ((s.back? width).bind (node.run some)).elim (if negated then next s else none)
        fun e => if negated then none else next { s with groups := e.groups } := by
  rw [Node.run.eq_def]
  dsimp only
  cases (s.back? width).bind (node.run some) <;> rfl

theorem Node.run_backref (index : Nat) (folding : Folding) :
    (Node.backref index folding).run next s =
      (s.groups.lookup index).bind fun text => (s.follow? folding text).bind next := by
  rw [Node.run.eq_def]
  dsimp only
  cases s.groups.lookup index <;> rfl

/-- A possessive repetition takes all that it can, and is not asked again. -/
theorem Node.run_possessive (least : Nat) (most : Option Nat) :
    (Node.repeated least most .possessive node).run next s =
      (exactly (fun k s => (node.run some s).bind k) some least s).bind fun e =>
        next (exhaust (fun k s => node.run k s) (spare least most e.left) none e) := by
  rw [Node.run.eq_def]
  dsimp only
  cases exactly (fun k s => (node.run some s).bind k) some least s <;> rfl

/-! ## Nodes -/

/-- What groups have captured makes no difference to where a cursor stands. -/
theorem Stays.of_groups (hnext : Stays next) {groups : List (Nat × Text)}
    (h : next { s with groups } = some e) : e.text = s.text := by
  rw [hnext h]
  rfl

/-- What comes after a look ahead or behind stays in the text. -/
theorem Stays.of_look (hnext : Stays next) {look : Option Cursor} {negated : Bool}
    (h : (look.elim (if negated then next s else none)
      fun e => if negated then none else next { s with groups := e.groups }) = some e) :
    e.text = s.text := by
  cases look with
  | none =>
    rw [Option.elim_none] at h
    split at h
    · exact hnext h
    · cases h
  | some found =>
    rw [Option.elim_some] at h
    split at h
    · cases h
    · exact hnext.of_groups h

/-- However many glyphs of a class are taken, and in whatever order that is tried. -/
theorem stays_several (c : GlyphClass) (least : Nat) (most : Option Nat) (greed : Greed) :
    StaysItem (Node.several c least most greed).run := by
  intro next hnext s e h
  cases greed with
  | greedy =>
    obtain ⟨mid, hmem, hmid⟩ := List.exists_of_findSome?_eq_some h
    exact (hnext hmid).trans
      (Cursor.text_of_mem_advances (List.mem_of_mem_drop (List.mem_reverse.1 hmem)))
  | lazy =>
    obtain ⟨mid, hsteps, hrest⟩ := Option.bind_eq_some_iff.1 h
    exact (stays_fewest hnext c _ hrest).trans (Cursor.text_of_steps? hsteps)
  | possessive =>
    obtain ⟨mid, hlast, hrest⟩ := Option.bind_eq_some_iff.1 h
    exact (hnext hrest).trans
      (Cursor.text_of_mem_advances (List.mem_of_mem_drop (List.mem_of_getLast? hlast)))

/-- A repetition stays in its text if its body does. -/
theorem stays_repeated (hbody : StaysItem node.run) (least : Nat) (most : Option Nat)
    (greed : Greed) : StaysItem (Node.repeated least most greed node).run := by
  intro next hnext s e h
  have hupTo : ∀ greedy, Stays fun mid => upTo (fun k s => node.run k s) next greedy
      (spare least most mid.left) none mid :=
    fun greedy mid _ hmid => stays_upTo hbody hnext greedy _ none hmid
  cases greed with
  | greedy => exact stays_exactly hbody (hupTo _) least h
  | lazy => exact stays_exactly hbody (hupTo _) least h
  | possessive =>
    -- here the body is not asked again, so it runs on its own and then what follows runs
    have hexactly : Stays (exactly (fun k s => (node.run some s).bind k) some least) := by
      refine stays_exactly (fun k hk s e h => ?_) stays_some least
      obtain ⟨mid, hmid, hrest⟩ := Option.bind_eq_some_iff.1 h
      exact (hk hrest).trans (hbody stays_some hmid)
    rw [Node.run_possessive] at h
    obtain ⟨mid, hmid, hrest⟩ := Option.bind_eq_some_iff.1 h
    rw [hnext hrest, text_exhaust hbody, hexactly hmid]

/-- A node stays in its text whenever what follows does. -/
theorem stays_run (node : Node) : StaysItem node.run := by
  induction node with
  | empty => exact fun next hnext => hnext
  | one c =>
    intro next hnext s e h
    rw [Node.run_one] at h
    obtain ⟨mid, hstep, hrest⟩ := Option.bind_eq_some_iff.1 h
    exact (hnext hrest).trans (Cursor.text_of_step? hstep)
  | place spot =>
    intro next hnext s e h
    rw [Node.run_place] at h
    split at h
    · exact hnext h
    · cases h
  | seq first second ih ih' => exact fun next hnext => ih (ih' hnext)
  | alt first second ih ih' =>
    intro next hnext s e h
    rcases eq_some_of_orElse h with h | h
    · exact ih hnext h
    · exact ih' hnext h
  | capture index body ih =>
    intro next hnext s e h
    -- the capture only changes what is kept in the groups, so it is part of what follows the body
    have hlater : Stays fun mid => next { mid with
        groups := (index, s.rest.take (mid.index - s.index)) :: mid.groups } :=
      fun _ _ h => hnext.of_groups h
    exact ih hlater h
  | atomic body ih =>
    intro next hnext s e h
    rw [Node.run_atomic] at h
    obtain ⟨mid, hmid, hrest⟩ := Option.bind_eq_some_iff.1 h
    exact (hnext hrest).trans (ih stays_some hmid)
  | ahead negated body ih =>
    intro next hnext s e h
    rw [Node.run_ahead] at h
    exact hnext.of_look h
  | behind width negated body ih =>
    -- the body runs on its own, from further back; what follows goes on from here all the same
    intro next hnext s e h
    rw [Node.run_behind] at h
    exact hnext.of_look h
  | backref index folding =>
    intro next hnext s e h
    rw [Node.run_backref] at h
    obtain ⟨text, -, h⟩ := Option.bind_eq_some_iff.1 h
    obtain ⟨mid, hfollow, hrest⟩ := Option.bind_eq_some_iff.1 h
    exact (hnext hrest).trans (Cursor.text_of_follow? hfollow)
  | conditional index yes no ih ih' =>
    intro next hnext s e h
    have h : (if (s.groups.lookup index).isSome then yes.run next s else no.run next s) = some e :=
      h
    split at h
    · exact ih hnext h
    · exact ih' hnext h
  | several c least most greed => exact stays_several c least most greed
  | repeated least most greed body ih => exact stays_repeated ih least most greed

/-! ## Deleting -/

/-- A match ends in the text that it is searched in, and so does what is passed over before it. -/
theorem of_findFrom? {mustMove : Bool} {before passed rest : Text} {index left : Nat}
    {found : Found} (h : node.findFrom? mustMove before passed index left rest = some found) :
    found.after.text = before.reverse ++ rest ∧ found.passed ⊆ passed ++ rest := by
  -- at the end of a match nothing follows, or nothing but a check that it has moved on
  have hmatch : ∀ {mustMove : Bool} {s e : Cursor}, node.matchAt? mustMove s = some e →
      e.text = s.text := by
    intro mustMove s e h
    refine stays_run node (fun mid e h => ?_) h
    split at h
    · cases h
    · cases h
      rfl
  induction rest generalizing mustMove before passed index left with
  | nil =>
    rw [Node.findFrom?] at h
    obtain ⟨e, he, rfl⟩ := Option.map_eq_some_iff.1 h
    exact ⟨hmatch he, List.subset_append_left _ _⟩
  | cons g rest ih =>
    rw [Node.findFrom?] at h
    split at h
    · next e he =>
      cases h
      exact ⟨hmatch he, List.subset_append_left _ _⟩
    · obtain ⟨hafter, hpassed⟩ := ih h
      refine ⟨by rw [hafter]; simp, fun g' hg' => ?_⟩
      have hmem := hpassed hg'
      simp only [List.mem_append, List.mem_cons] at hmem ⊢
      tauto

theorem deleteFrom_subset (fuel : Nat) (mustMove : Bool) (s : Cursor) :
    node.deleteFrom fuel mustMove s ⊆ s.text := by
  induction fuel generalizing mustMove s with
  | zero => exact List.subset_append_right _ _
  | succ fuel ih =>
    rw [Node.deleteFrom]
    split
    · exact List.subset_append_right _ _
    · next found hfound =>
      obtain ⟨hafter, hpassed⟩ := of_findFrom? hfound
      refine List.append_subset.2 ⟨fun g hg => ?_, ?_⟩
      · exact List.subset_append_right _ _ (hpassed (List.mem_reverse.1 hg))
      · have hrest := ih found.isEmpty found.after
        rwa [hafter] at hrest

/-- Deleting matches leaves glyphs of the text. -/
theorem deleteAll_subset (pattern : Pattern) (text : Text) : pattern.deleteAll text ⊆ text :=
  deleteFrom_subset _ _ _

end Pattern

theorem cleaned_subset (patterns : List Pattern) (text : Text) : cleaned patterns text ⊆ text := by
  induction patterns generalizing text with
  | nil => exact List.Subset.refl text
  | cons pattern patterns ih => exact List.Subset.trans (ih _) (pattern.deleteAll_subset text)

end Minifier
