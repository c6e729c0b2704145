import Mathlib.Data.List.Infix
import Minifier.Pattern
import Minifier.Proofs.Answers

/-!
# Patterns that are never fatal

A pattern is fatal when compiling it ends in a fault other than `Fault.malformed`. Only a counted
repetition and a list of flags can bring that about: the reader keeps to what is left of the tokens
and to the modes, and gives up on malformed patterns alone, as long as it meets neither. Main
definitions: `IsFatal`, `IsMild`; main result: `not_isFatal_of_isMild`.
-/

set_option autoImplicit false

namespace Minifier

namespace Pattern

/-- The fault that compiling a source ends in, if it is not that the pattern is malformed. -/
def fatalFault? (source : String) : Option Fault :=
  match compile source with
  | .ok _ => none
  | .error .malformed => none
  | .error fault => some fault

/-- A pattern that cannot be compiled and is not malformed either. -/
def IsFatal (source : String) : Prop :=
  (fatalFault? source).isSome

instance (source : String) : Decidable (IsFatal source) :=
  inferInstanceAs (Decidable ((fatalFault? source).isSome = true))

theorem fatalFault?_eq_some_iff {source : String} {fault : Fault} :
    fatalFault? source = some fault ↔ compile source = .error fault ∧ fault ≠ .malformed := by
  unfold fatalFault?
  split
  · next hcompile => simp [hcompile]
  · next hcompile => simp only [hcompile]; grind
  · next hne hcompile => rw [hcompile]; grind

/-- Whether a list of flags starts here: a parenthesis, a question mark, and then a flag letter or
a hyphen. -/
def startsFlags : List Token → Bool
  | .plain '(' :: .plain '?' :: .plain c :: _ => c = '-' || (modeOf? c).isSome
  | _ => false

/-- Tokens among which there is no plain opening brace and no list of flags. -/
def IsMild (all : List Token) : Prop :=
  ∀ left ∈ all.tails, left.head? ≠ some (.plain '\x7b') ∧ startsFlags left = false

instance (all : List Token) : Decidable (IsMild all) :=
  inferInstanceAs (Decidable (∀ left ∈ all.tails, _ ∧ _))

theorem IsMild.here {all : List Token} (h : IsMild all) :
    all.head? ≠ some (.plain '\x7b') ∧ startsFlags all = false :=
  h all ((List.mem_tails _ _).2 List.suffix_rfl)

theorem IsMild.suffix {all left : List Token} (h : IsMild all) (hleft : left <:+ all) :
    IsMild left :=
  fun _ hrest => h _ ((List.mem_tails _ _).2 (((List.mem_tails _ _).1 hrest).trans hleft))

/-! ## What a mild step does -/

variable {α β : Type}

/-- A reader that, from here, keeps to what is left and to the modes, and gives up on malformed
patterns alone. -/
def Mild (reader : Reader α) (reading : Reading) : Prop :=
  match reader.run reading with
  | .ok (_, after) => after.left <:+ reading.left ∧ after.modes = reading.modes
  | .error fault => fault = .malformed

theorem mild_pure (a : α) (reading : Reading) : Mild (pure a : Reader α) reading :=
  ⟨List.suffix_rfl, rfl⟩

theorem mild_malformed (reading : Reading) : Mild (malformed : Reader α) reading :=
  rfl

theorem mild_get (reading : Reading) : Mild (get : Reader Reading) reading :=
  ⟨List.suffix_rfl, rfl⟩

theorem mild_peek (reading : Reading) : Mild peek reading :=
  ⟨List.suffix_rfl, rfl⟩

/-- A change of what neither concerns the tokens nor the modes. -/
theorem mild_modify {change : Reading → Reading} {reading : Reading}
    (hleft : (change reading).left = reading.left)
    (hmodes : (change reading).modes = reading.modes) :
    Mild (modify change : Reader Unit) reading := by
  show (change reading).left <:+ reading.left ∧ _
  rw [hleft]
  exact ⟨List.suffix_rfl, hmodes⟩

/-- One step after another, where more is known about the first one than that it is mild. -/
theorem Mild.bind_of_run {first : Reader α} {next : α → Reader β} {reading : Reading}
    (hfirst : Mild first reading)
    (hnext : ∀ a after, first.run reading = .ok (a, after) → after.left <:+ reading.left →
      Mild (next a) after) :
    Mild (first >>= next) reading := by
  unfold Mild at *
  rw [StateT.run_bind]
  cases hrun : first.run reading with
  | error fault =>
    rw [hrun] at hfirst
    exact hfirst
  | ok found =>
    obtain ⟨a, after⟩ := found
    rw [hrun] at hfirst
    have hthen := hnext a after hrun hfirst.1
    show match (next a).run after with
      | .ok (_, last) => last.left <:+ reading.left ∧ last.modes = reading.modes
      | .error fault => fault = .malformed
    cases hlast : (next a).run after with
    | error fault =>
      rw [hlast] at hthen
      exact hthen
    | ok found =>
      rw [hlast] at hthen
      exact ⟨hthen.1.trans hfirst.1, hthen.2.trans hfirst.2⟩

theorem Mild.bind {first : Reader α} {next : α → Reader β} {reading : Reading}
    (hfirst : Mild first reading)
    (hnext : ∀ a after, after.left <:+ reading.left → Mild (next a) after) :
    Mild (first >>= next) reading :=
  hfirst.bind_of_run fun a after _ hleft => hnext a after hleft

theorem Mild.bind_of_isMild {first : Reader α} {next : α → Reader β} {reading : Reading}
    (hfirst : Mild first reading) (hmild : IsMild reading.left)
    (hnext : ∀ a after, IsMild after.left → Mild (next a) after) :
    Mild (first >>= next) reading :=
  hfirst.bind fun a after hleft => hnext a after (hmild.suffix hleft)

theorem mild_advance (reading : Reading) : Mild advance reading := by
  show Mild (moveTo reading.left.tail) reading
  unfold moveTo
  split
  · exact mild_malformed reading
  · exact ⟨List.tail_suffix _, rfl⟩

theorem left_of_run_advance {reading after : Reading} {u : Unit}
    (h : advance.run reading = .ok (u, after)) : after.left = reading.left.tail := by
  change (moveTo reading.left.tail).run reading = .ok (u, after) at h
  unfold moveTo at h
  split at h
  · cases h
  · cases h
    rfl

theorem mild_take (reading : Reading) : Mild take reading :=
  (mild_peek reading).bind fun _ after _ =>
    (mild_advance after).bind fun _ after _ => mild_pure _ after

theorem of_run_take {reading after : Reading} {next : Option Token}
    (h : take.run reading = .ok (next, after)) :
    next = reading.left.head? ∧ after.left = reading.left.tail := by
  change (advance >>= fun _ => pure reading.left.head?).run reading = .ok (next, after) at h
  rw [StateT.run_bind] at h
  obtain ⟨⟨u, moved⟩, hmoved, h⟩ := bind_eq_ok_iff.1 h
  cases h
  exact ⟨rfl, left_of_run_advance hmoved⟩

theorem mild_takeIf (c : Char) (reading : Reading) : Mild (takeIf c) reading := by
  refine (mild_peek reading).bind fun next after _ => ?_
  split
  · exact (mild_advance after).bind fun _ after _ => mild_pure true after
  · exact mild_pure false after

theorem left_of_run_takeIf {c : Char} {reading after : Reading}
    (h : (takeIf c).run reading = .ok (true, after)) :
    reading.left = .plain c :: after.left := by
  change (if reading.left.head? = some (.plain c) then advance >>= fun _ => pure true
    else pure false : Reader Bool).run reading = .ok (true, after) at h
  split at h
  · next hhead =>
    rw [StateT.run_bind] at h
    obtain ⟨⟨u, moved⟩, hmoved, h⟩ := bind_eq_ok_iff.1 h
    cases h
    rw [left_of_run_advance hmoved, List.cons_head?_tail hhead]
  · cases h

/-! ## The parts of the reader -/

theorem mild_takeWhile (test : Char → Bool) (limit : Nat) (reading : Reading) :
    Mild (takeWhile test limit) reading := by
  induction limit generalizing reading with
  | zero => exact mild_pure _ reading
  | succ limit ih =>
    refine (mild_peek reading).bind fun next after _ => ?_
    split
    · split
      · exact (mild_advance after).bind fun _ after _ =>
          (ih after).bind fun _ after _ => mild_pure _ after
      · exact mild_pure _ after
    · exact mild_pure _ after

theorem mild_takeName (close : Char) (limit : Nat) (reading : Reading) :
    Mild (takeName close limit) reading := by
  induction limit generalizing reading with
  | zero => exact mild_malformed reading
  | succ limit ih =>
    refine (mild_take reading).bind fun next after _ => ?_
    split
    · exact mild_malformed after
    · split
      · exact mild_pure _ after
      · exact (ih after).bind fun _ after _ => mild_pure _ after
    · exact (ih after).bind fun _ after _ => mild_pure _ after

theorem mild_takeNameUntil (close : Char) (reading : Reading) :
    Mild (takeNameUntil close) reading := by
  refine (mild_get reading).bind fun found after _ =>
    (mild_takeName close _ after).bind fun name after _ => ?_
  split
  · exact mild_malformed after
  · exact mild_pure _ after

theorem mild_takeIdentifier (close : Char) (reading : Reading) :
    Mild (takeIdentifier close) reading := by
  refine (mild_takeNameUntil close reading).bind fun name after _ => ?_
  split
  · exact mild_pure _ after
  · exact mild_malformed after

theorem mild_readHex (count : Nat) (reading : Reading) : Mild (readHex count) reading := by
  refine (mild_takeWhile _ _ reading).bind fun digits after _ => ?_
  split
  · exact mild_pure _ after
  · exact mild_malformed after

theorem mild_readCodeEscape (c : Char) (reading : Reading) : Mild (readCodeEscape c) reading := by
  unfold readCodeEscape
  split
  · exact mild_readHex 2 reading
  · exact mild_readHex 4 reading
  · refine (mild_readHex 8 reading).bind fun code after _ => ?_
    split
    · exact mild_pure _ after
    · exact mild_malformed after

theorem mild_readSetEscape (c : Char) (reading : Reading) : Mild (readSetEscape c) reading := by
  unfold readSetEscape
  split
  · exact mild_pure _ reading
  · exact mild_pure _ reading
  · split
    · exact (mild_readCodeEscape c reading).bind fun _ after _ => mild_pure _ after
    · split
      · refine (mild_takeWhile _ _ reading).bind fun digits after _ => ?_
        dsimp only
        split
        · exact mild_pure _ after
        · exact mild_malformed after
      · split
        · exact mild_malformed reading
        · exact mild_pure _ reading

theorem mild_readSetMember (token : Token) (reading : Reading) :
    Mild (readSetMember token) reading := by
  cases token with
  | plain c => exact mild_pure _ reading
  | escaped c => exact mild_readSetEscape c reading
  | dangling => exact mild_malformed reading

theorem mild_readSetItems (fuel : Nat) (items : List SetItem) (reading : Reading) :
    Mild (readSetItems fuel items) reading := by
  induction fuel generalizing items reading with
  | zero => exact mild_malformed reading
  | succ fuel ih =>
    refine (mild_take reading).bind fun token after _ => ?_
    split
    · exact mild_malformed after
    · split
      · exact mild_pure _ after
      · refine (mild_readSetMember _ after).bind fun member after _ =>
          (mild_takeIf _ after).bind fun hyphen after _ => ?_
        split
        · refine (mild_take after).bind fun token after _ => ?_
          split
          · exact mild_malformed after
          · exact mild_pure _ after
          · refine (mild_readSetMember _ after).bind fun other after _ => ?_
            split
            · split
              · exact mild_malformed after
              · exact ih _ after
            · exact mild_malformed after
        · exact ih _ after

theorem mild_readSet (reading : Reading) : Mild readSet reading :=
  (mild_takeIf _ reading).bind fun _ after _ => (mild_get after).bind fun _ after _ =>
    (mild_readSetItems _ _ after).bind fun _ after _ => mild_pure _ after

theorem mild_checkGroup (index : Nat) (reading : Reading) : Mild (checkGroup index) reading := by
  refine (mild_get reading).bind fun found after _ => ?_
  split
  · exact mild_malformed after
  · split
    · split
      · exact mild_malformed after
      · exact mild_pure _ after
    · exact mild_pure _ after

theorem mild_checkCondition (index : Nat) (reading : Reading) :
    Mild (checkCondition index) reading := by
  refine (mild_get reading).bind fun found after _ => ?_
  split
  · exact mild_checkGroup index after
  · exact mild_pure _ after

theorem mild_readEscape (c : Char) (reading : Reading) : Mild (readEscape c) reading := by
  unfold readEscape
  split
  · exact mild_pure _ reading
  · exact mild_pure _ reading
  · exact mild_pure _ reading
  · split
    · exact (mild_readCodeEscape c reading).bind fun _ after _ => mild_pure _ after
    · split
      · exact (mild_takeWhile _ _ reading).bind fun _ after _ => mild_pure _ after
      · split
        · refine (mild_takeWhile _ _ reading).bind fun second after _ => ?_
          -- what comes behind two digits: a third octal one, or the reference to a group
          have hthird : ∀ third after, Mild (if !third.isEmpty then
              if numberOf 8 (c :: second ++ third) ≤ 0o377 then
                pure (.literal (numberOf 8 (c :: second ++ third)))
              else malformed
            else do
              checkGroup (numberOf 10 (c :: second))
              pure (.backref (numberOf 10 (c :: second))) : Reader Form) after := by
            intro third after
            split
            · split
              · exact mild_pure _ after
              · exact mild_malformed after
            · exact (mild_checkGroup _ after).bind fun _ after _ => mild_pure _ after
          dsimp only
          split
          · exact (mild_takeWhile _ _ after).bind fun third after _ => hthird third after
          · exact (mild_pure _ after).bind fun third after _ => hthird third after
        · split
          · exact mild_malformed reading
          · exact mild_pure _ reading

theorem mild_openGroup (name : Option String) (reading : Reading) :
    Mild (openGroup name) reading := by
  unfold openGroup
  refine (mild_get reading).bind_of_run fun found after hfound _ => ?_
  cases hfound
  dsimp only
  split
  · exact ⟨List.suffix_rfl, rfl⟩
  · split
    · exact mild_malformed reading
    · exact ⟨List.suffix_rfl, rfl⟩

theorem mild_closeGroup (index : Nat) (body : Form) (reading : Reading) :
    Mild (closeGroup index body) reading :=
  mild_modify rfl rfl

theorem mild_groupNamed (name : List Char) (reading : Reading) :
    Mild (groupNamed name) reading := by
  refine (mild_get reading).bind fun found after _ => ?_
  split
  · exact mild_pure _ after
  · exact mild_malformed after

theorem mild_readCondition (reading : Reading) : Mild readCondition reading := by
  unfold readCondition
  refine (mild_takeNameUntil _ reading).bind fun name after _ => ?_
  dsimp only
  split
  · exact (mild_groupNamed name after).bind fun _ after _ =>
      (mild_checkCondition _ after).bind fun _ after _ => mild_pure _ after
  · split
    · split
      · exact mild_malformed after
      · exact Mild.bind (mild_modify rfl rfl) fun _ after _ =>
          (mild_checkCondition _ after).bind fun _ after _ => mild_pure _ after
    · exact mild_malformed after

theorem mild_skipComment (fuel : Nat) (reading : Reading) : Mild (skipComment fuel) reading := by
  induction fuel generalizing reading with
  | zero => exact mild_malformed reading
  | succ fuel ih =>
    refine (mild_take reading).bind fun token after _ => ?_
    split
    · exact mild_malformed after
    · split
      · exact mild_pure _ after
      · exact ih after

theorem mild_skipLine (fuel : Nat) (reading : Reading) : Mild (skipLine fuel) reading := by
  induction fuel generalizing reading with
  | zero => exact mild_pure _ reading
  | succ fuel ih =>
    refine (mild_take reading).bind fun token after _ => ?_
    split
    · exact mild_pure _ after
    · split
      · exact mild_pure _ after
      · exact ih after

theorem mild_repeatedItem (items : List Form) (reading : Reading) :
    Mild (repeatedItem items) reading := by
  unfold repeatedItem
  split
  · exact mild_malformed reading
  · exact mild_malformed reading
  · exact mild_malformed reading
  · split
    · exact mild_pure _ reading
    · exact mild_pure _ reading
  · exact mild_pure _ reading

theorem mild_takeGreed (reading : Reading) : Mild takeGreed reading := by
  refine (mild_takeIf _ reading).bind fun found after _ => ?_
  split
  · exact mild_pure _ after
  · refine (mild_takeIf _ after).bind fun found after _ => ?_
    split
    · exact mild_pure _ after
    · exact mild_pure _ after

theorem mild_addRepetition (items : List Form) (least : Nat) (most : Option Nat)
    (reading : Reading) : Mild (addRepetition items least most) reading :=
  (mild_repeatedItem items reading).bind fun _ after _ =>
    (mild_takeGreed after).bind fun _ after _ => mild_pure _ after

theorem mild_closeParenthesis (reading : Reading) : Mild closeParenthesis reading := by
  refine (mild_takeIf _ reading).bind fun found after _ => ?_
  split
  · exact mild_pure _ after
  · exact mild_malformed after


/-! ## The grammar -/

section Goals

variable {fuel : Nat}
  (ih : ∀ goal reading, IsMild reading.left → Mild (readGoal fuel goal) reading)

include ih

/-- What follows a parenthesis that closes a part. -/
theorem mild_closed (goal : Goal) {reading : Reading} (hmild : IsMild reading.left) :
    Mild (closeParenthesis >>= fun _ => readGoal fuel goal) reading :=
  (mild_closeParenthesis reading).bind_of_isMild hmild fun _ after hmild => ih goal after hmild

/-- A look-behind after its sign, and what follows it. -/
theorem mild_behind (verbose : Bool) (goal : Form → Goal) {reading : Reading}
    (hmild : IsMild reading.left) :
    Mild (do
      let outer := (← get).behindFrom
      modify fun reading => { reading with behindFrom := some (outer.getD (reading.opened + 1)) }
      let body ← readGoal fuel (.alternatives false verbose)
      modify fun reading => { reading with behindFrom := outer }
      closeParenthesis
      readGoal fuel (goal body)) reading :=
  (mild_get reading).bind_of_isMild hmild fun _ _ hmild =>
    Mild.bind_of_isMild (mild_modify rfl rfl) hmild fun _ after hmild =>
      (ih _ after hmild).bind_of_isMild hmild fun body _ hmild =>
        Mild.bind_of_isMild (mild_modify rfl rfl) hmild fun _ _ hmild =>
          mild_closed ih (goal body) hmild

/-- What stands behind `(?P`: a group with a name, or a reference to one. -/
theorem mild_named (verbose : Bool) (goal : Form → Goal) {reading : Reading}
    (hmild : IsMild reading.left) :
    Mild (do
      if ← takeIf '<' then
        let name ← takeIdentifier '>'
        let index ← openGroup (some (String.ofList name))
        let body ← readGoal fuel (.group (some index) {} {} verbose)
        readGoal fuel (goal body)
      else if ← takeIf '=' then
        let index ← groupNamed (← takeIdentifier ')')
        checkGroup index
        readGoal fuel (goal (.backref index))
      else malformed) reading := by
  refine (mild_takeIf '<' reading).bind_of_isMild hmild fun opens after hmild => ?_
  split
  · refine (mild_takeIdentifier _ after).bind_of_isMild hmild fun _ after hmild =>
      (mild_openGroup _ after).bind_of_isMild hmild fun _ after hmild => ?_
    exact (ih _ after hmild).bind_of_isMild hmild fun _ after hmild => ih _ after hmild
  · refine (mild_takeIf '=' after).bind_of_isMild hmild fun refers after hmild => ?_
    split
    · refine (mild_takeIdentifier _ after).bind_of_isMild hmild fun _ after hmild =>
        (mild_groupNamed _ after).bind_of_isMild hmild fun _ after hmild => ?_
      exact (mild_checkGroup _ after).bind_of_isMild hmild fun _ after hmild => ih _ after hmild
    · exact mild_malformed after

/-- A condition on a group, with one or two ways, and what follows it. -/
theorem mild_conditional (verbose : Bool) (goal : Form → Goal) {reading : Reading}
    (hmild : IsMild reading.left) :
    Mild (do
      let index ← readCondition
      let yes ← readGoal fuel (.items false verbose [])
      let no ←
        if ← takeIf '|' then
          let no ← readGoal fuel (.items false verbose [])
          if (← peek) = some (.plain '|') then malformed
          pure no
        else pure .empty
      closeParenthesis
      readGoal fuel (goal (.conditional index yes no))) reading := by
  refine (mild_readCondition reading).bind_of_isMild hmild fun index after hmild =>
    (ih _ after hmild).bind_of_isMild hmild fun yes after hmild =>
      (mild_takeIf '|' after).bind_of_isMild hmild fun bar after hmild => ?_
  dsimp only
  split
  · refine (ih _ after hmild).bind_of_isMild hmild fun no after hmild =>
      (mild_peek after).bind_of_isMild hmild fun bar after hmild => ?_
    split
    · exact mild_malformed after
    · exact mild_closed ih _ hmild
  · exact mild_closed ih _ hmild

/-- The items of an alternative, where shorter parts are known to be mild. -/
theorem mild_readGoal_items (first verbose : Bool) (items : List Form) {reading : Reading}
    (hmild : IsMild reading.left) :
    Mild (readGoal (fuel + 1) (.items first verbose items)) reading := by
  -- Only two of the cases are of interest: an opening brace, and a list of flags behind a
  -- parenthesis. Mildness rules them out, so the way down to them keeps the run of each step.
  rw [readGoal]
  refine (mild_peek reading).bind_of_run fun next after hpeek _ => ?_
  cases hpeek
  split
  · exact mild_pure _ reading
  · exact mild_malformed reading
  · refine (mild_advance reading).bind_of_isMild hmild fun _ after hmild => ?_
    exact (mild_readEscape _ after).bind_of_isMild hmild fun _ after hmild => ih _ after hmild
  next c hhead =>
  split
  · exact mild_pure _ reading
  refine (mild_advance reading).bind_of_run fun _ after hadvance hafter => ?_
  have hleft : reading.left = .plain c :: after.left := by
    rw [left_of_run_advance hadvance, List.cons_head?_tail hhead]
  have hrest := hmild.suffix hafter
  split
  · exact ih _ after hrest
  split
  · refine (mild_get after).bind_of_isMild hrest fun _ after hrest => ?_
    exact (mild_skipLine _ after).bind_of_isMild hrest fun _ after hrest => ih _ after hrest
  split
  -- a set, a dot and the two places
  · exact (mild_readSet after).bind_of_isMild hrest fun _ after hrest => ih _ after hrest
  · exact ih _ after hrest
  · exact ih _ after hrest
  · exact ih _ after hrest
  -- the three marks of a repetition
  · exact (mild_addRepetition items _ _ after).bind_of_isMild hrest fun _ after hrest =>
      ih _ after hrest
  · exact (mild_addRepetition items _ _ after).bind_of_isMild hrest fun _ after hrest =>
      ih _ after hrest
  · exact (mild_addRepetition items _ _ after).bind_of_isMild hrest fun _ after hrest =>
      ih _ after hrest
  · exact absurd hhead hmild.here.1
  -- a parenthesis, and what its extension asks for
  · refine (mild_takeIf '?' after).bind_of_run fun extended asked hextended hasked => ?_
    have hrest := hrest.suffix hasked
    split
    · refine (mild_openGroup none asked).bind_of_isMild hrest fun _ after hrest => ?_
      exact (ih _ after hrest).bind_of_isMild hrest fun _ after hrest => ih _ after hrest
    next hnot =>
    obtain rfl : extended = true := by simpa using hnot
    refine (mild_take asked).bind_of_run fun mark after hmark hafter => ?_
    obtain ⟨rfl, htail⟩ := of_run_take hmark
    have hrest := hrest.suffix hafter
    split
    · exact (ih _ after hrest).bind_of_isMild hrest fun _ after hrest => ih _ after hrest
    · exact (ih _ after hrest).bind_of_isMild hrest fun _ _ hrest => mild_closed ih _ hrest
    · refine (mild_get after).bind_of_isMild hrest fun _ after hrest => ?_
      exact (mild_skipComment _ after).bind_of_isMild hrest fun _ after hrest => ih _ after hrest
    · exact mild_named ih verbose (fun body => .items first verbose (body :: items)) hrest
    · exact mild_conditional ih verbose (fun body => .items first verbose (body :: items)) hrest
    · refine (mild_take after).bind_of_isMild hrest fun sign after hrest => ?_
      dsimp only
      split
      · exact mild_behind ih verbose
          (fun body => .items first verbose (.look false false body :: items)) hrest
      · exact mild_behind ih verbose
          (fun body => .items first verbose (.look false true body :: items)) hrest
      · exact mild_malformed after
    · next d _ _ _ _ _ _ hmark =>
      split
      · exact (ih _ after hrest).bind_of_isMild hrest fun _ _ hrest => mild_closed ih _ hrest
      split
      · next hflag =>
        -- The tokens from the parenthesis on are a list of flags, which a mild text has not.
        have hflags : startsFlags reading.left = true := by
          rw [hleft, left_of_run_takeIf hextended, ← List.cons_head?_tail hmark]
          exact hflag
        rw [hmild.here.2] at hflags
        cases hflags
      · exact mild_malformed after
    · exact mild_malformed after
  · exact ih _ after hrest

end Goals

theorem mild_readGoal (fuel : Nat) :
    (∀ goal reading, IsMild reading.left → Mild (readGoal fuel goal) reading) ∧
      ∀ top verbose reading, IsMild reading.left →
        Mild (readGoal.readRest fuel top verbose) reading := by
  induction fuel with
  | zero =>
    exact ⟨fun _ reading _ => mild_malformed reading, fun _ _ reading _ => mild_malformed reading⟩
  | succ fuel ih =>
    -- on the fuel, for goals and for the rest of alternatives together
    obtain ⟨ihgoal, ihrest⟩ := ih
    refine ⟨fun goal reading hmild => ?_, fun top verbose reading hmild => ?_⟩
    · cases goal with
      | alternatives top verbose =>
        rw [readGoal]
        refine (ihgoal _ reading hmild).bind_of_isMild hmild fun first after hmild =>
          (mild_takeIf _ after).bind_of_isMild hmild fun bar after hmild => ?_
        split
        · refine (mild_get after).bind_of_isMild hmild fun found after hmild => ?_
          exact (ihrest top _ after hmild).bind fun _ after _ => mild_pure _ after
        · exact mild_pure _ after
      | items first verbose items => exact mild_readGoal_items ihgoal first verbose items hmild
      | group index on off verbose =>
        rw [readGoal]
        refine (ihgoal _ reading hmild).bind fun body after _ =>
          (mild_closeParenthesis after).bind fun _ after _ => ?_
        dsimp only
        split
        · exact (mild_closeGroup _ body after).bind fun _ after _ => mild_pure _ after
        · exact (mild_pure _ after).bind fun _ after _ => mild_pure _ after
    · rw [readGoal.readRest]
      refine (ihgoal _ reading hmild).bind_of_isMild hmild fun next after hmild =>
        (mild_takeIf _ after).bind_of_isMild hmild fun bar after hmild => ?_
      split
      · refine (mild_get after).bind_of_isMild hmild fun found after hmild => ?_
        exact (ihrest top _ after hmild).bind fun _ after _ => mild_pure _ after
      · exact mild_pure _ after

/-! ## Compiling -/

/-- A form that is made of a resolved part is malformed only if that part is. -/
theorem eq_malformed_of_part {α β : Type} {part : Except Fault α} {make : α → β} {fault : Fault}
    (hpart : ∀ {fault}, part = .error fault → fault = .malformed)
    (h : (part >>= fun a => pure (make a)) = .error fault) : fault = .malformed := by
  obtain h | ⟨_, -, h⟩ := bind_eq_error_iff.1 h
  · exact hpart h
  · cases h

/-- A form that is made of two resolved parts is malformed only if one of them is. -/
theorem eq_malformed_of_parts {α β γ : Type} {first : Except Fault α} {second : Except Fault β}
    {make : α → β → γ} {fault : Fault}
    (hfirst : ∀ {fault}, first = .error fault → fault = .malformed)
    (hsecond : ∀ {fault}, second = .error fault → fault = .malformed)
    (h : (do return make (← first) (← second)) = .error fault) : fault = .malformed := by
  obtain h | ⟨_, -, h⟩ := bind_eq_error_iff.1 h
  · exact hfirst h
  · exact eq_malformed_of_part hsecond h

theorem resolve_error_eq_malformed {groups : List (Nat × Nat × Nat)} {form : Form}
    {modes : Modes} {fault : Fault} (h : form.resolve groups modes = .error fault) :
    fault = .malformed := by
  induction form generalizing modes fault with
  | empty => cases h
  | set negated items => cases h
  | anyGlyph => cases h
  | place spot => cases h
  | seq first second ihfirst ihsecond => exact eq_malformed_of_parts ihfirst ihsecond h
  | alt first second ihfirst ihsecond => exact eq_malformed_of_parts ihfirst ihsecond h
  | group index on off body ih =>
    rw [Form.resolve] at h
    obtain h | ⟨_, -, h⟩ := bind_eq_error_iff.1 h
    · exact ih h
    · cases index <;> cases h
  | atomic body ih => exact eq_malformed_of_part ih h
  | look ahead negated body ih =>
    rw [Form.resolve] at h
    split at h
    · exact eq_malformed_of_part ih h
    · -- a look behind is refused where the body has no fixed width
      dsimp only at h
      split at h
      · cases h
        rfl
      · exact eq_malformed_of_part ih h
  | backref index => cases h
  | conditional index yes no ihyes ihno => exact eq_malformed_of_parts ihyes ihno h
  | repeated least most greed body ih =>
    rw [Form.resolve] at h
    split at h
    · cases h
      rfl
    · exact eq_malformed_of_part ih h

/-- Reading a mild text from its start switches no mode, and gives up on malformed text alone. -/
theorem modes_of_run_start {all : List Token} (hmild : IsMild all) (fuel : Nat) (goal : Goal) :
    match (moveTo all >>= fun _ => readGoal fuel goal).run { left := [] } with
    | .ok (_, after) => after.modes = {}
    | .error fault => fault = .malformed := by
  have hgoal : match (readGoal fuel goal).run { left := all } with
      | .ok (_, after) => after.modes = {}
      | .error fault => fault = .malformed := by
    have hmildly := (mild_readGoal fuel).1 goal { left := all } hmild
    unfold Mild at hmildly
    cases hrun : (readGoal fuel goal).run { left := all } with
    | ok found =>
      rw [hrun] at hmildly
      exact hmildly.2
    | error fault =>
      rw [hrun] at hmildly
      exact hmildly
  rcases all with _ | ⟨_ | _ | _, rest⟩
  · exact hgoal
  · exact hgoal
  · exact hgoal
  · rfl

theorem read_error_eq_malformed {source : String} {fault : Fault}
    (hmild : IsMild (tokens source.toList)) (h : read source = .error fault) :
    fault = .malformed := by
  have hstart := modes_of_run_start hmild (4 * (tokens source.toList).length + 8)
    (.alternatives true false)
  unfold read at h
  obtain h | ⟨⟨form, reading⟩, hrun, h⟩ := bind_eq_error_iff.1 h
  · rw [h] at hstart
    exact hstart
  · rw [hrun] at hstart
    have hmodes : reading.modes = {} := hstart
    simp only [hmodes] at h
    split at h
    · next hmixed => cases hmixed
    · split at h
      · cases h
        rfl
      · split at h
        · cases h
          rfl
        · cases h

/-- A pattern without counted repetitions and without flags is not fatal. -/
theorem not_isFatal_of_isMild {source : String} (hmild : IsMild (tokens source.toList)) :
    ¬ IsFatal source := by
  intro hfatal
  obtain ⟨fault, hfault⟩ := Option.isSome_iff_exists.1 hfatal
  obtain ⟨hfault, hne⟩ := fatalFault?_eq_some_iff.1 hfault
  refine hne ?_
  obtain h | ⟨_, -, h⟩ := bind_eq_error_iff.1 hfault
  · exact read_error_eq_malformed hmild h
  · obtain h | ⟨_, -, h⟩ := bind_eq_error_iff.1 h
    · exact resolve_error_eq_malformed h
    · cases h

end Pattern

end Minifier
