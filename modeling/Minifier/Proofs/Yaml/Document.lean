import Minifier.Proofs.Answers
import Minifier.Proofs.Yaml.Token
import Minifier.Yaml.Value

/-!
# What can be wrong with the nodes of a YAML text

Building nodes fails because a token stands where it may not, which makes the text malformed, or at
the end of the tokens, because of what is wrong behind them (`KeepsFault`). Nodes, nodes that may be
left out and the entries of collections are built by one mutual recursion, so that they are treated
together, by induction on the fuel that they share (`NodesKeepFault`, `nodesKeepFault`). Each step
of building has one lemma, and so does each style of a collection.
-/

set_option autoImplicit false

namespace Minifier

namespace Yaml

variable {α β : Type} {fault : Fault}

namespace Build

/-- A step of building that fails only because the text is malformed, or as its tokens end. -/
def KeepsFault (fault : Fault) (job : Build α) : Prop :=
  Holds (fun b => b.fault = fault) (fun e => e = .malformed ∨ e = fault) job fun _ => True

theorem KeepsFault.bind {job : Build α} {next : α → Build β} (h : KeepsFault fault job)
    (hnext : ∀ a, KeepsFault fault (next a)) : KeepsFault fault (job >>= next) :=
  Holds.bind h fun a _ => hnext a

theorem keepsFault_pure (a : α) : KeepsFault fault (pure a) :=
  Holds.pure trivial

theorem keepsFault_malformed : KeepsFault fault (throw .malformed : Build α) :=
  Holds.throw (.inl rfl)

theorem KeepsFault.ite {p : Prop} [Decidable p] {job job' : Build α} (h : KeepsFault fault job)
    (h' : KeepsFault fault job') : KeepsFault fault (if p then job else job') :=
  Holds.ite (fun _ => h) fun _ => h'

theorem keepsFault_get : KeepsFault fault (get : Build Builder) :=
  Holds.get.mono fun _ _ => trivial

theorem keepsFault_modify {f : Builder → Builder} (h : ∀ b, (f b).fault = b.fault) :
    KeepsFault fault (modify f) :=
  Holds.modify fun b hb => (h b).trans hb

theorem keepsFault_peek : KeepsFault fault peek := by
  refine Holds.bind Holds.get fun b hb => ?_
  split
  · exact keepsFault_pure _
  · exact Holds.bind Holds.get fun b hb => Holds.throw (.inr hb)

theorem keepsFault_skip : KeepsFault fault skip :=
  keepsFault_modify fun _ => rfl

theorem keepsFault_accept (token : Token) : KeepsFault fault (accept token) := by
  refine keepsFault_peek.bind fun next => KeepsFault.ite ?_ (keepsFault_pure false)
  exact keepsFault_skip.bind fun _ => keepsFault_pure true

theorem keepsFault_add (node : Node) : KeepsFault fault (add node) := by
  refine Holds.bind Holds.get fun b hb => ?_
  exact Holds.bind (Holds.set hb) fun _ _ => keepsFault_pure _

theorem keepsFault_fill (number : Nat) (content : Content) :
    KeepsFault fault (fill number content) :=
  keepsFault_modify fun _ => rfl

theorem keepsFault_name (anchor : Option String) (number : Nat) :
    KeepsFault fault (Build.name anchor number) := by
  cases anchor with
  | none => exact keepsFault_pure ()
  | some anchor => exact keepsFault_modify fun _ => rfl

theorem keepsFault_empty : KeepsFault fault empty :=
  keepsFault_add _

theorem keepsFault_fullTag (tag : TagText) : KeepsFault fault (fullTag tag) := by
  rw [fullTag]
  split
  · exact keepsFault_pure _
  · refine keepsFault_get.bind fun b => ?_
    split
    · exact keepsFault_pure _
    · exact keepsFault_malformed

theorem keepsFault_anchor? : KeepsFault fault anchor? := by
  refine keepsFault_peek.bind fun token => ?_
  split
  · exact keepsFault_skip.bind fun _ => keepsFault_pure _
  · exact keepsFault_pure none

theorem keepsFault_tag? : KeepsFault fault tag? := by
  refine keepsFault_peek.bind fun token => ?_
  split
  · exact keepsFault_skip.bind fun _ => keepsFault_pure _
  · exact keepsFault_pure none

/-- A name that has been read; it may be given once. -/
theorem keepsFault_named (anchor full : Option String) : KeepsFault fault (do
    match anchor with
    | some name => if ((← get).anchors.lookup name).isSome then throw .malformed
    | none => pure ()
    return (anchor, full)) := by
  cases anchor with
  | none => exact keepsFault_pure _
  | some name =>
    refine keepsFault_get.bind fun b => KeepsFault.ite ?_ (keepsFault_pure _)
    exact keepsFault_malformed.bind fun _ => keepsFault_pure _

/-- A tag that has been read, and the name beside it. -/
theorem keepsFault_tagged (tag : Option TagText) (anchor : Option String) : KeepsFault fault (do
    let full ← match tag with
      | some tag => do pure (some (← fullTag tag))
      | none => pure none
    match anchor with
    | some name => if ((← get).anchors.lookup name).isSome then throw .malformed
    | none => pure ()
    return (anchor, full)) := by
  cases tag with
  | none => exact (keepsFault_pure none).bind fun full => keepsFault_named anchor full
  | some tag =>
    refine (keepsFault_fullTag tag).bind fun full => ?_
    exact (keepsFault_pure (some full)).bind fun full => keepsFault_named anchor full

theorem keepsFault_properties : KeepsFault fault properties := by
  refine keepsFault_anchor?.bind fun before => keepsFault_tag?.bind fun tag => ?_
  exact (keepsFault_anchor?.bind (keepsFault_tagged tag)).ite
    ((keepsFault_pure before).bind (keepsFault_tagged tag))

/-! ## Nodes -/

/-- Nodes, nodes that may be left out, and the entries of collections, by the fuel that they
share. -/
structure NodesKeepFault (fault : Fault) (fuel : Nat) : Prop where
  node : ∀ block indentless, KeepsFault fault (node fuel block indentless)
  optional : ∀ style indentless, KeepsFault fault (optional fuel style indentless)
  entries : ∀ style first done, KeepsFault fault (entries fuel style first done)

namespace NodesKeepFault

variable {fuel : Nat} {style : Style} {first : Bool} {done : Entries}

/-- A collection, behind the token that starts it. -/
theorem collection (h : NodesKeepFault fault fuel) (anchor tag : Option String) (style : Style) :
    KeepsFault fault (do
      let number ← add ⟨collectionTag tag (if style.isMapping then .mapping else .sequence),
        contentOf style []⟩
      Build.name anchor number
      let entries ← Build.entries fuel style true []
      fill number (contentOf style entries)
      return number) := by
  refine (keepsFault_add _).bind fun number => (keepsFault_name anchor number).bind fun _ => ?_
  refine (h.entries style true []).bind fun entries => ?_
  exact (keepsFault_fill _ _).bind fun _ => keepsFault_pure number

theorem node_succ (h : NodesKeepFault fault fuel) (block indentless : Bool) :
    KeepsFault fault (Build.node (fuel + 1) block indentless) := by
  rw [Build.node]
  refine keepsFault_peek.bind fun token => ?_
  split
  · refine keepsFault_skip.bind fun _ => keepsFault_get.bind fun b => ?_
    split
    · exact keepsFault_pure _
    · exact keepsFault_malformed
  · refine keepsFault_properties.bind fun (anchor, tag) => keepsFault_peek.bind fun token => ?_
    dsimp only
    split
    · refine keepsFault_skip.bind fun _ => (keepsFault_add _).bind fun number => ?_
      exact (keepsFault_name anchor number).bind fun _ => keepsFault_pure number
    · split
      · next style skipped hstarted =>
        have hcollection := h.collection anchor tag style
        exact (keepsFault_skip.bind fun _ => hcollection).ite hcollection
      · have hscalar : KeepsFault fault (do
            let number ← add ⟨scalarTag tag true [], .scalar []⟩
            Build.name anchor number
            return number) := by
          refine (keepsFault_add _).bind fun number => ?_
          exact (keepsFault_name anchor number).bind fun _ => keepsFault_pure number
        exact (keepsFault_malformed.bind fun _ => hscalar).ite hscalar

theorem optional_succ (h : NodesKeepFault fault fuel) (style : Style) (indentless : Bool) :
    KeepsFault fault (Build.optional (fuel + 1) style indentless) := by
  rw [Build.optional]
  exact keepsFault_peek.bind fun token => keepsFault_empty.ite (h.node _ _)

/-- What follows the value of a pair, which may be left out. -/
theorem behind_value (h : NodesKeepFault fault fuel) {indentless : Bool} {next : Nat → Build α}
    (hnext : ∀ value, KeepsFault fault (next value)) :
    KeepsFault fault (accept .value >>= fun isThere =>
      if isThere then Build.optional fuel style indentless >>= next else empty >>= next) := by
  refine (keepsFault_accept _).bind fun isThere => ?_
  exact ((h.optional _ _).bind hnext).ite (keepsFault_empty.bind hnext)

/-- What follows the key of a pair between brackets, which may be left out. -/
theorem behind_key (h : NodesKeepFault fault fuel) {next : Nat → Build α}
    (hnext : ∀ key, KeepsFault fault (next key)) :
    KeepsFault fault (peek >>= fun token =>
      if token == .value then empty >>= next
      else Build.optional fuel style false >>= next) := by
  refine keepsFault_peek.bind fun token => ?_
  exact (keepsFault_empty.bind hnext).ite ((h.optional _ _).bind hnext)

theorem entries_blockSequence (h : NodesKeepFault fault fuel) :
    KeepsFault fault (Build.entries (fuel + 1) .blockSequence first done) := by
  rw [Build.entries]
  refine (keepsFault_accept _).bind fun isEntry => KeepsFault.ite ?_ ?_
  · exact (h.optional _ _).bind fun item => h.entries _ _ _
  · exact (keepsFault_accept _).bind fun isEnd => (keepsFault_pure done).ite keepsFault_malformed

theorem entries_indentlessSequence (h : NodesKeepFault fault fuel) :
    KeepsFault fault (Build.entries (fuel + 1) .indentlessSequence first done) := by
  rw [Build.entries]
  refine (keepsFault_accept _).bind fun isEntry => KeepsFault.ite ?_ (keepsFault_pure done)
  exact (h.optional _ _).bind fun item => h.entries _ _ _

theorem entries_blockMapping (h : NodesKeepFault fault fuel) :
    KeepsFault fault (Build.entries (fuel + 1) .blockMapping first done) := by
  rw [Build.entries]
  refine (keepsFault_accept _).bind fun isKey => KeepsFault.ite ?_ ?_
  · exact (h.optional _ _).bind fun key => h.behind_value fun value => h.entries _ _ _
  · exact (keepsFault_accept _).bind fun isEnd => (keepsFault_pure done).ite keepsFault_malformed

theorem entries_flowSequence (h : NodesKeepFault fault fuel) :
    KeepsFault fault (Build.entries (fuel + 1) .flowSequence first done) := by
  have hrest : KeepsFault fault (do
      if ← accept .key then
        let number ← add ⟨.mapping, .mapping []⟩
        let key ← if (← peek) == .value then empty
          else Build.optional fuel .flowSequence false
        let value ← if ← accept .value then Build.optional fuel .flowSequence false else empty
        fill number (.mapping [(key, value)])
        Build.entries fuel .flowSequence false ((number, none) :: done)
      else if ← accept .flowSequenceEnd then return done
      else
        let item ← Build.node fuel false false
        Build.entries fuel .flowSequence false ((item, none) :: done)) := by
    refine (keepsFault_accept _).bind fun isKey => KeepsFault.ite ?_ ?_
    · refine (keepsFault_add _).bind fun number => h.behind_key fun key => ?_
      refine h.behind_value fun value => (keepsFault_fill _ _).bind fun _ => ?_
      exact h.entries _ _ _
    · refine (keepsFault_accept _).bind fun isEnd => (keepsFault_pure done).ite ?_
      exact (h.node _ _).bind fun item => h.entries _ _ _
  rw [Build.entries]
  refine (keepsFault_accept _).bind fun isEnd => (keepsFault_pure done).ite ?_
  refine (keepsFault_accept _).bind fun isEntry => ?_
  exact (keepsFault_malformed.bind fun _ => hrest).ite hrest

theorem entries_flowMapping (h : NodesKeepFault fault fuel) :
    KeepsFault fault (Build.entries (fuel + 1) .flowMapping first done) := by
  have hrest : KeepsFault fault (do
      if ← accept .key then
        let key ← if (← peek) == .value then empty else Build.optional fuel .flowMapping false
        let value ← if ← accept .value then Build.optional fuel .flowMapping false else empty
        Build.entries fuel .flowMapping false ((key, some value) :: done)
      else if ← accept .flowMappingEnd then return done
      else
        let key ← Build.node fuel false false
        let value ← empty
        Build.entries fuel .flowMapping false ((key, some value) :: done)) := by
    refine (keepsFault_accept _).bind fun isKey => KeepsFault.ite ?_ ?_
    · exact h.behind_key fun key => h.behind_value fun value => h.entries _ _ _
    · refine (keepsFault_accept _).bind fun isEnd => (keepsFault_pure done).ite ?_
      exact (h.node _ _).bind fun key => keepsFault_empty.bind fun value => h.entries _ _ _
  rw [Build.entries]
  refine (keepsFault_accept _).bind fun isEnd => (keepsFault_pure done).ite ?_
  refine (keepsFault_accept _).bind fun isEntry => ?_
  exact (keepsFault_malformed.bind fun _ => hrest).ite hrest

theorem entries_succ (h : NodesKeepFault fault fuel) (style : Style) (first : Bool)
    (done : Entries) : KeepsFault fault (Build.entries (fuel + 1) style first done) := by
  cases style with
  | blockSequence => exact h.entries_blockSequence
  | indentlessSequence => exact h.entries_indentlessSequence
  | blockMapping => exact h.entries_blockMapping
  | flowSequence => exact h.entries_flowSequence
  | flowMapping => exact h.entries_flowMapping

end NodesKeepFault

theorem nodesKeepFault (fault : Fault) (fuel : Nat) : NodesKeepFault fault fuel := by
  induction fuel with
  | zero =>
    refine ⟨fun _ _ => ?_, fun _ _ => ?_, fun _ _ _ => ?_⟩
    · rw [node]
      exact keepsFault_malformed
    · rw [optional]
      exact keepsFault_malformed
    · rw [entries]
      exact keepsFault_malformed
  | succ fuel ih => exact ⟨ih.node_succ, ih.optional_succ, ih.entries_succ⟩

/-! ## Documents -/

theorem keepsFault_directives (fuel : Nat) (version : Bool) (handles : List (String × String)) :
    KeepsFault fault (directives fuel version handles) := by
  induction fuel generalizing version handles with
  | zero => exact keepsFault_pure handles
  | succ fuel ih =>
    rw [directives]
    refine keepsFault_peek.bind fun token => ?_
    split
    · refine keepsFault_skip.bind fun _ => ?_
      exact (keepsFault_malformed.bind fun _ => ih _ _).ite (ih _ _)
    · refine keepsFault_skip.bind fun _ => ?_
      exact (keepsFault_malformed.bind fun _ => ih _ _).ite (ih _ _)
    · exact keepsFault_skip.bind fun _ => ih _ _
    · exact keepsFault_pure handles

theorem keepsFault_skipEnds (fuel : Nat) : KeepsFault fault (skipEnds fuel) := by
  induction fuel with
  | zero => exact keepsFault_pure ()
  | succ fuel ih => exact (keepsFault_accept _).bind fun isEnd => ih.ite (keepsFault_pure ())

theorem keepsFault_document (fault : Fault) (fuel : Nat) : KeepsFault fault (document fuel) := by
  have hend : ∀ root : Nat, KeepsFault fault (do
      skipEnds fuel
      if (← peek) != .streamEnd then throw .malformed
      return some root) := by
    intro root
    refine (keepsFault_skipEnds fuel).bind fun _ => keepsFault_peek.bind fun token => ?_
    exact (keepsFault_malformed.bind fun _ => keepsFault_pure _).ite (keepsFault_pure _)
  have hnode := (nodesKeepFault fault fuel).node true false
  refine keepsFault_peek.bind fun token => (keepsFault_pure none).ite (KeepsFault.ite ?_ ?_)
  · exact (keepsFault_modify (by exact fun _ => rfl)).bind fun _ => hnode.bind hend
  · refine (keepsFault_directives _ _ _).bind fun handles => ?_
    refine (keepsFault_modify (by exact fun _ => rfl)).bind fun _ => ?_
    have hroot : KeepsFault fault (do
        let root ← if endsDocument (← peek) then empty else node fuel true false
        skipEnds fuel
        if (← peek) != .streamEnd then throw .malformed
        return some root) := by
      refine keepsFault_peek.bind fun token => ?_
      exact (keepsFault_empty.bind hend).ite (hnode.bind hend)
    refine (keepsFault_accept _).bind fun isStart => ?_
    exact (keepsFault_malformed.bind fun _ => hroot).ite hroot

end Build

/-- Making a document of tokens fails because they are malformed, or as they end. -/
theorem fault_of_ofTokens {list : TokenList} (h : Document.ofTokens list = .error fault) :
    fault = .malformed ∨ list.fault = some fault := by
  have hbuilt := Build.keepsFault_document (list.fault.getD .malformed)
    (3 * list.tokens.length + 4) { tokens := list.tokens, fault := list.fault.getD .malformed } rfl
  rcases bind_eq_error_iff.1 h with herror | ⟨_, _, h⟩
  · rw [herror] at hbuilt
    rcases hbuilt with hmalformed | hend
    · exact .inl hmalformed
    · cases hfault : list.fault with
      | none => exact .inl (by rw [hend, hfault]; rfl)
      | some found => exact .inr (by rw [hend, hfault]; rfl)
  · cases h

end Yaml

end Minifier
