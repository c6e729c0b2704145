import Minifier.Proofs.Yaml.Document

/-!
# What can be wrong with the values of a YAML text

Values are made of the nodes of a document, and merging changes these on the way: a mapping gets the
pairs of others, and a key that is written as an equals sign becomes a text. No node gets another
text to be read, or a tag under which it could not be read (`Node.Descends`). So a value cannot be
made only because the text is malformed, or because a node of the document itself has a text that
its tag refuses (`Document.Misspells`).
-/

set_option autoImplicit false

namespace Minifier

namespace Yaml

variable {α β : Type} {fault : Fault} {document : Document} {number : Nat}

/-- A node that has no text of its own. -/
def Document.IsBare (document : Document) (number : Nat) : Prop :=
  ∀ node, document.nodes[number]? = some node → ∀ text, node.content ≠ .scalar text

/-- A text that a node may be read by: its own, or, if it has none, that of another node, which it
then refers to as its default. -/
def Document.Offers (document : Document) (number : Nat) (text : List Char) : Prop :=
  (∃ node, document.nodes[number]? = some node ∧ node.content = .scalar text) ∨
    document.IsBare number ∧ ∃ other ∈ document.nodes, other.content = .scalar text

/-- The tag of a node refuses a text that the node may be read by. -/
def Document.Misspells (document : Document) (fault : Fault) : Prop :=
  ∃ number node text, document.nodes[number]? = some node ∧ document.Offers number text ∧
    Scalar.ofText node.tag text = .error fault

/-- What becomes of a node when values are made. -/
structure Node.Descends (original node : Node) : Prop where
  content : ∀ text, node.content = .scalar text ↔ original.content = .scalar text
  tag : node.tag = original.tag ∨ node.tag = .text

namespace Make

/-- All nodes descend from those of the document. -/
def DescendsFrom (document : Document) (m : Making) : Prop :=
  ∀ (number : Nat) (node : Node), m.nodes[number]? = some node →
    ∃ original : Node, document.nodes[number]? = some original ∧ original.Descends node

/-- A step of making values that fails only because the text is malformed or a node is misspelt. -/
def KeepsNodes (document : Document) (job : Make α) (post : α → Prop) : Prop :=
  Holds (DescendsFrom document) (fun e => e = .malformed ∨ document.Misspells e) job post

theorem keepsNodes_malformed {post : α → Prop} :
    KeepsNodes document (throw .malformed : Make α) post :=
  Holds.throw (.inl rfl)

/-- Nothing follows a text that is malformed. -/
theorem keepsNodes_malformed_bind {next : α → Make β} {post : β → Prop} :
    KeepsNodes document ((throw .malformed : Make α) >>= next) post :=
  Holds.throw (.inl rfl)

theorem keepsNodes_pure_bind {a : α} {next : α → Make β} {post : β → Prop}
    (h : ∀ a, KeepsNodes document (next a) post) : KeepsNodes document (pure a >>= next) post := by
  rw [pure_bind]
  exact h a

theorem keepsNodes_nodeAt (number : Nat) :
    KeepsNodes document (nodeAt number) fun node =>
      ∃ original : Node, document.nodes[number]? = some original ∧ original.Descends node := by
  refine Holds.bind Holds.get fun m hm => ?_
  split
  · next node hnode => exact Holds.pure (hm number node hnode)
  · exact keepsNodes_malformed

theorem keepsNodes_put (number : Nat) (value : Value) :
    KeepsNodes document (put number value) fun _ => True :=
  Holds.modify fun _ hm => hm

theorem keepsNodes_putWaiting (number : Nat) (value : Value) :
    KeepsNodes document (putWaiting number value) fun _ => True :=
  (keepsNodes_put number value).bind fun _ _ => Holds.modify fun _ hm => hm

/-- Changing one node keeps to the document if what it becomes descends from what it was. -/
theorem descendsFrom_modify {m : Making} {f : Node → Node} (hm : DescendsFrom document m)
    (hf : ∀ original node, document.nodes[number]? = some original → original.Descends node →
      original.Descends (f node)) :
    DescendsFrom document { m with nodes := m.nodes.modify number f } := by
  intro place node hnode
  rw [Array.getElem?_modify] at hnode
  split at hnode
  · next heq =>
    subst heq
    obtain ⟨old, hold, rfl⟩ := Option.map_eq_some_iff.1 hnode
    obtain ⟨original, horiginal, hdescends⟩ := hm _ old hold
    exact ⟨original, horiginal, hf original old horiginal hdescends⟩
  · exact hm place node hnode

theorem keepsNodes_setPairs (hbare : document.IsBare number) (pairs : List (Nat × Nat)) :
    KeepsNodes document (setPairs number pairs) fun _ => True := by
  refine Holds.modify fun m hm => descendsFrom_modify hm fun original node horiginal h => ?_
  refine ⟨fun text => ⟨fun hpairs => ?_, fun htext => ?_⟩, h.tag⟩
  · cases hpairs
  · exact absurd htext (hbare original horiginal text)

theorem keepsNodes_settleKey (number : Nat) :
    KeepsNodes document (settleKey number) fun _ => True := by
  refine Holds.modify fun m hm => descendsFrom_modify hm fun original node _ h => ?_
  split
  · exact ⟨h.content, .inr rfl⟩
  · exact h

/-- A node with pairs has no text. -/
theorem keepsNodes_pairsOf (number : Nat) :
    KeepsNodes document (pairsOf number) fun _ => document.IsBare number := by
  refine (keepsNodes_nodeAt number).bind fun node ⟨original, horiginal, hdescends⟩ => ?_
  split
  · next pairs hpairs =>
    refine Holds.pure fun other hother text htext => ?_
    cases horiginal.symm.trans hother
    rw [← hdescends.content, hpairs] at htext
    cases htext
  · exact keepsNodes_malformed

/-- Asking for the tag of a node. -/
theorem keepsNodes_tagAt {p : Tag → Bool} (number : Nat) :
    KeepsNodes document (do return p (← nodeAt number).tag) fun _ => True :=
  (keepsNodes_nodeAt number).bind fun _ _ => Holds.pure trivial

theorem keepsNodes_scalarText (fuel number : Nat) :
    KeepsNodes document (scalarText fuel number) (document.Offers number) := by
  induction fuel generalizing number with
  | zero => exact keepsNodes_malformed
  | succ fuel ih =>
    rw [scalarText]
    refine (keepsNodes_nodeAt number).bind fun node ⟨original, horiginal, hdescends⟩ => ?_
    split
    · next text htext =>
      exact Holds.pure (.inl ⟨original, horiginal, (hdescends.content text).1 htext⟩)
    · exact keepsNodes_malformed
    · next pairs hpairs =>
      -- a mapping has no text of its own, and may give the one of its default key
      have hbare : document.IsBare number := by
        intro other hother text htext
        cases horiginal.symm.trans hother
        rw [← hdescends.content, hpairs] at htext
        cases htext
      refine Holds.bind (Holds.filterM fun pair _ => ?_) fun defaults _ => ?_
      · exact keepsNodes_tagAt (p := (· == .value)) pair.1
      split
      · next value _ _ =>
        refine (ih _).mono fun text htext => .inr ⟨hbare, ?_⟩
        rcases htext with ⟨node, hnode, hcontent⟩ | ⟨-, hother⟩
        · exact ⟨node, Array.mem_of_getElem? hnode, hcontent⟩
        · exact hother
      · exact keepsNodes_malformed

/-- The text of a scalar is refused only if it is misspelt in the document. -/
theorem meets_ofText {original node : Node} {text : List Char}
    (horiginal : document.nodes[number]? = some original) (hdescends : original.Descends node)
    (htext : document.Offers number text) :
    Meets (fun _ => True) (fun e => e = .malformed ∨ document.Misspells e)
      (Scalar.ofText node.tag text) := by
  cases hanswer : Scalar.ofText node.tag text with
  | ok value => trivial
  | error fault =>
    rcases hdescends.tag with hsame | hsettled
    · exact .inr ⟨number, original, text, horiginal, htext, hsame ▸ hanswer⟩
    · rw [hsettled] at hanswer
      cases hanswer

/-- A value that has been made is put in its place. -/
theorem keepsNodes_made (number : Nat) (value : Value) : KeepsNodes document (do
    match value with
    | .scalar _ => put number value
    | _ => putWaiting number value
    return value) fun _ => True := by
  cases value with
  | scalar value => exact (keepsNodes_put _ _).bind fun _ _ => Holds.pure trivial
  | _ => exact (keepsNodes_putWaiting _ _).bind fun _ _ => Holds.pure trivial

/-- The value of a node that counts as a scalar. -/
theorem keepsNodes_makeScalar {original node : Node}
    (horiginal : document.nodes[number]? = some original) (hdescends : original.Descends node) :
    KeepsNodes document (do
      let text ← scalarText ((← get).nodes.size + 1) number
      let scalar ← (Scalar.ofText node.tag text : Except Fault Scalar)
      let value := Value.scalar scalar
      match value with
      | .scalar _ => put number value
      | _ => putWaiting number value
      return value) fun _ => True := by
  refine Holds.bind Holds.get fun m hm => (keepsNodes_scalarText _ _).bind fun text htext => ?_
  refine (Holds.lift (meets_ofText horiginal hdescends htext)).bind fun scalar _ => ?_
  exact keepsNodes_made number (.scalar scalar)

theorem keepsNodes_make (number : Nat) : KeepsNodes document (make number) fun _ => True := by
  refine Holds.bind Holds.get fun m hm => ?_
  split
  · exact Holds.pure trivial
  · refine (keepsNodes_nodeAt number).bind fun node ⟨original, horiginal, hdescends⟩ => ?_
    have hscalar := keepsNodes_makeScalar horiginal hdescends
    split
    -- the five kinds of collections, which stay empty for now, and then all scalars
    iterate 5
      exact keepsNodes_pure_bind (keepsNodes_made number)
    exact Holds.ite (fun _ => keepsNodes_malformed_bind) fun _ => hscalar

/-! ## Merging -/

/-- Merging one mapping, when the mappings of its nodes are merged in such a way. -/
theorem keepsNodes_mergeInto {merge : Nat → Make Unit}
    (hmerge : ∀ number, KeepsNodes document (merge number) fun _ => True) (number : Nat) :
    KeepsNodes document (mergeInto merge number) fun _ => True := by
  have hpairs : ∀ number, KeepsNodes document (do
      merge number
      pairsOf number) fun _ => True :=
    fun number => (hmerge number).bind fun _ _ => (keepsNodes_pairsOf number).mono fun _ _ => trivial
  refine (keepsNodes_pairsOf number).bind fun pairs hbare => ?_
  refine Holds.bind (Holds.filterM fun pair _ => ?_) fun merging _ => ?_
  · exact keepsNodes_tagAt (p := (· == .merge)) pair.1
  refine Holds.bind (Holds.filterM fun pair _ => ?_) fun own _ => ?_
  · exact keepsNodes_tagAt (p := (· != .merge)) pair.1
  refine Holds.bind (Holds.forM fun pair _ => keepsNodes_settleKey pair.1) fun _ _ => ?_
  refine (keepsNodes_setPairs hbare own).bind fun _ _ => ?_
  refine Holds.bind (Holds.mapM fun pair _ => ?_) fun merged _ => ?_
  · refine (keepsNodes_nodeAt pair.2).bind fun node _ => ?_
    split
    · exact hpairs pair.2
    · refine Holds.bind (Holds.mapM fun item _ => ?_) fun lists _ => Holds.pure trivial
      refine (keepsNodes_nodeAt item).bind fun node _ => ?_
      split
      · exact hpairs item
      · exact keepsNodes_malformed
    · exact keepsNodes_malformed
  · exact (keepsNodes_pairsOf number).bind fun pairs hbare => keepsNodes_setPairs hbare _

theorem keepsNodes_mergeAll (fuel number : Nat) :
    KeepsNodes document (mergeAll fuel number) fun _ => True := by
  induction fuel generalizing number with
  | zero => exact Holds.pure trivial
  | succ fuel ih => exact keepsNodes_mergeInto ih number

/-! ## Filling collections -/

theorem keepsNodes_mappingEntries (number : Nat) :
    KeepsNodes document (mappingEntries number) fun _ => True := by
  refine (keepsNodes_pairsOf number).bind fun _ _ => Holds.bind Holds.get fun m hm => ?_
  refine (keepsNodes_mergeAll _ number).bind fun _ _ => ?_
  refine (keepsNodes_pairsOf number).bind fun pairs _ => Holds.foldlM fun entries pair _ => ?_
  refine (keepsNodes_make pair.1).bind fun key _ => ?_
  split
  · exact (keepsNodes_make pair.2).bind fun _ _ => Holds.pure trivial
  · exact keepsNodes_malformed

theorem keepsNodes_makePair (number : Nat) :
    KeepsNodes document (makePair number) fun _ => True := by
  refine (keepsNodes_pairsOf number).bind fun pairs _ => ?_
  split
  · next key value =>
    refine (keepsNodes_make key).bind fun _ _ => ?_
    exact (keepsNodes_make value).bind fun _ _ => Holds.pure trivial
  · exact keepsNodes_malformed

theorem keepsNodes_itemsOf (number : Nat) :
    KeepsNodes document (itemsOf number) fun _ => True := by
  refine (keepsNodes_nodeAt number).bind fun node _ => ?_
  split
  · exact Holds.pure trivial
  · exact keepsNodes_malformed

theorem keepsNodes_fill (number : Nat) : KeepsNodes document (fill number) fun _ => True := by
  refine Holds.bind Holds.get fun m hm => ?_
  split
  · refine (keepsNodes_itemsOf number).bind fun items _ => ?_
    refine Holds.bind (Holds.forM fun item _ => ?_) fun _ _ => keepsNodes_put _ _
    exact (keepsNodes_make item).bind fun _ _ => Holds.pure trivial
  · refine (keepsNodes_itemsOf number).bind fun items _ => ?_
    exact Holds.bind (Holds.forM fun item _ => keepsNodes_makePair item) fun _ _ =>
      keepsNodes_put _ _
  · exact (keepsNodes_mappingEntries number).bind fun _ _ => keepsNodes_put _ _
  · exact (keepsNodes_mappingEntries number).bind fun _ _ => keepsNodes_put _ _
  · exact Holds.pure trivial

theorem keepsNodes_fillAll (fuel : Nat) : KeepsNodes document (fillAll fuel) fun _ => True := by
  induction fuel with
  | zero => exact Holds.pure trivial
  | succ fuel ih =>
    refine Holds.bind Holds.get fun m hm => ?_
    refine Holds.bind (Holds.modify (by exact fun _ hm => hm)) fun _ _ => ?_
    refine Holds.ite (fun _ => Holds.pure trivial) fun _ => ?_
    exact Holds.bind (Holds.forM fun number _ => keepsNodes_fill number) fun _ _ => ih

end Make

/-- Values cannot be made only because their document is malformed, or because one of its nodes is
misspelt. -/
theorem fault_of_ofDocument (h : Values.ofDocument document = .error fault) :
    fault = .malformed ∨ document.Misspells fault := by
  have hmade : Make.KeepsNodes document (do
      let _ ← Make.make document.root
      Make.fillAll (document.nodes.size + 1)) fun _ => True :=
    (Make.keepsNodes_make _).bind fun _ _ => Make.keepsNodes_fillAll _
  have hstart : Make.DescendsFrom document
      ⟨document.nodes, Array.replicate document.nodes.size none, []⟩ :=
    fun number node hnode => ⟨node, hnode, fun _ => .rfl, .inl rfl⟩
  have hended := hmade _ hstart
  rcases bind_eq_error_iff.1 h with herror | ⟨_, _, h⟩
  · rw [herror] at hended
    exact hended
  · cases h

/-- Reading goes by the document that the tokens make, if the text has one. -/
theorem read_eq (text : List Char) :
    read (String.ofList text) =
      if !text.all isAllowed then .error .malformed
      else Document.ofTokens (TokenList.ofText text) >>= fun
        | some document => Values.ofDocument document
        | none => .ok ⟨#[], none⟩ := by
  rw [read, String.toList_ofList]
  split
  · rfl
  · rfl

/-- A text cannot be read only because it is malformed, because of a number among its tokens, or
because a node of its document is misspelt. -/
theorem fault_of_read {text : List Char} (h : read (String.ofList text) = .error fault) :
    TokenFault text fault ∨ ∃ document,
      Document.ofTokens (TokenList.ofText text) = .ok (some document) ∧ document.Misspells fault := by
  rw [read_eq] at h
  split at h
  · cases h
    exact .inl .malformed
  · rcases bind_eq_error_iff.1 h with htokens | ⟨document?, hdocument, h⟩
    · rcases fault_of_ofTokens htokens with rfl | hfault
      · exact .inl .malformed
      · exact .inl (tokenFault_of_ofText hfault)
    · cases document? with
      | none => cases h
      | some document =>
        rcases fault_of_ofDocument h with rfl | hmisspells
        · exact .inl .malformed
        · exact .inr ⟨document, hdocument, hmisspells⟩

end Yaml

end Minifier
