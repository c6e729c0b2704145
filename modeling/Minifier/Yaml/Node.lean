import Minifier.Yaml.Tag
import Minifier.Yaml.Token.Basic

/-!
# Nodes of YAML

A document is a list of nodes that refer to one another by number, so that a node may stand in
several places, and even inside itself. `Document.ofTokens` builds it from the tokens of a text.
-/

set_option autoImplicit false

namespace Minifier

namespace Yaml

/-- What a node holds; others are named by their numbers. -/
inductive Content where
  | scalar (text : List Char)
  | sequence (items : List Nat)
  | mapping (pairs : List (Nat × Nat))
  deriving DecidableEq, Repr

/-- A node: its tag and what it holds. -/
structure Node where
  tag : Tag
  content : Content
  deriving DecidableEq, Repr

/-- The nodes of a document and the number of its outermost one. -/
structure Document where
  nodes : Array Node
  root : Nat
  deriving DecidableEq, Repr

/-- The state of building: the tokens left, what is wrong behind the last of them, the nodes so far,
the nodes with names, and what the handles of tags stand for. -/
structure Builder where
  tokens : List Token
  fault : Fault
  nodes : Array Node := #[]
  anchors : List (String × Nat) := []
  handles : List (String × String) := []

/-- A step of building. -/
abbrev Build := StateT Builder (Except Fault)

namespace Build

/-- The next token. -/
def peek : Build Token := do
  match (← get).tokens with
  | token :: _ => return token
  | [] => throw (← get).fault

/-- Moves over the next token. -/
def skip : Build Unit :=
  modify fun b => { b with tokens := b.tokens.tail }

/-- Whether the next token is one of some; then it is skipped. -/
def accept (token : Token) : Build Bool := do
  if (← peek) == token then
    skip
    return true
  else return false

/-- Adds a node. -/
def add (node : Node) : Build Nat := do
  let b ← get
  set { b with nodes := b.nodes.push node }
  return b.nodes.size

/-- Replaces what a node holds. -/
def fill (number : Nat) (content : Content) : Build Unit :=
  modify fun b =>
    { b with nodes := b.nodes.modify number fun node => { node with content } }

/-- Names a node; a name may be given once. -/
def name (anchor : Option String) (number : Nat) : Build Unit := do
  match anchor with
  | none => return ()
  | some anchor => modify fun b => { b with anchors := (anchor, number) :: b.anchors }

/-- The node of a scalar that is not written. -/
def empty : Build Nat :=
  add ⟨.null, .scalar []⟩

/-! ## Properties -/

/-- The default meanings of the handles of tags. -/
def defaultHandles : List (String × String) :=
  [("!", "!"), ("!!", Tag.common)]

/-- The full text of a tag. -/
def fullTag (tag : TagText) : Build String := do
  match tag.handle with
  | none => return tag.suffix
  | some handle =>
    match (← get).handles.lookup handle with
    | some meaning => return meaning ++ tag.suffix
    | none => throw .malformed

/-- Reads the anchor, if the next token is one. -/
def anchor? : Build (Option String) := do
  match ← peek with
  | .anchor name =>
    skip
    return some name
  | _ => return none

/-- Reads the tag, if the next token is one. -/
def tag? : Build (Option TagText) := do
  match ← peek with
  | .tag tag =>
    skip
    return some tag
  | _ => return none

/-- Reads an anchor and a tag, in either order and either of them optional. -/
def properties : Build (Option String × Option String) := do
  let before ← anchor?
  let tag ← tag?
  let anchor ← if before.isNone && tag.isSome then anchor? else pure before
  let full ← match tag with
    | some tag => do pure (some (← fullTag tag))
    | none => pure none
  match anchor with
  | some name => if ((← get).anchors.lookup name).isSome then throw .malformed
  | none => pure ()
  return (anchor, full)

/-- The tag of a scalar: its own, or the one that its spelling gives to a plain scalar. -/
def scalarTag (tag : Option String) (plain : Bool) (text : List Char) : Tag :=
  match tag with
  | none => if plain then Tag.ofSpelling text else .text
  | some tag => if tag == "!" then Tag.ofSpelling text else Tag.ofText tag

/-- The tag of a collection: its own, or the common one. -/
def collectionTag (tag : Option String) (common : Tag) : Tag :=
  match tag with
  | none => common
  | some tag => if tag == "!" then common else Tag.ofText tag

/-! ## Collections -/

/-- How a collection is written. -/
inductive Style where
  | blockSequence
  | indentlessSequence
  | blockMapping
  | flowSequence
  | flowMapping
  deriving DecidableEq, Repr

/-- The tokens before which a value is left out. -/
def Style.endsValue : Style → Token → Bool
  | .blockSequence, token => token == .blockEntry || token == .blockEnd
  | .indentlessSequence, token =>
    token == .blockEntry || token == .key || token == .value || token == .blockEnd
  | .blockMapping, token => token == .key || token == .value || token == .blockEnd
  | .flowSequence, token => token == .flowEntry || token == .flowSequenceEnd
  | .flowMapping, token => token == .flowEntry || token == .flowMappingEnd

/-- The collection that a token starts, and whether the token is to be skipped. -/
def Style.startedBy? (block indentless : Bool) : Token → Option (Style × Bool)
  | .flowSequenceStart => some (.flowSequence, true)
  | .flowMappingStart => some (.flowMapping, true)
  | .blockSequenceStart => if block then some (.blockSequence, true) else none
  | .blockMappingStart => if block then some (.blockMapping, true) else none
  | .blockEntry => if indentless then some (.indentlessSequence, false) else none
  | _ => none

/-- Whether a collection is a mapping. -/
def Style.isMapping : Style → Bool
  | .blockMapping => true
  | .flowMapping => true
  | _ => false

/-- Whether a collection is written between brackets. -/
def Style.isFlow : Style → Bool
  | .flowSequence => true
  | .flowMapping => true
  | _ => false

/-- The entries of a collection that have been read: items, or pairs. -/
abbrev Entries := List (Nat × Option Nat)

/-- The content of a collection, from its entries, latest first. -/
def contentOf (style : Style) (entries : Entries) : Content :=
  if style.isMapping then
    .mapping (entries.reverse.filterMap fun (key, value) => value.map fun value => (key, value))
  else .sequence (entries.reverse.map Prod.fst)

mutual

/-- Reads a node: an alias, a scalar or a collection, with its properties. -/
def node : Nat → Bool → Bool → Build Nat
  | 0, _, _ => throw .malformed
  | fuel + 1, block, indentless => do
    match ← peek with
    | .alias name =>
      skip
      match (← get).anchors.lookup name with
      | some number => return number
      | none => throw .malformed
    | _ =>
      let (anchor, tag) ← properties
      let token ← peek
      match token with
      | .scalar plain text =>
        skip
        let number ← add ⟨scalarTag tag plain text, .scalar text⟩
        Build.name anchor number
        return number
      | _ =>
        match Style.startedBy? block indentless token with
        | some (style, skipped) =>
          if skipped then skip
          let common : Tag := if style.isMapping then .mapping else .sequence
          let number ← add ⟨collectionTag tag common, contentOf style []⟩
          Build.name anchor number
          let entries ← entries fuel style true []
          fill number (contentOf style entries)
          return number
        | none =>
          if anchor.isNone && tag.isNone then throw .malformed
          let number ← add ⟨scalarTag tag true [], .scalar []⟩
          Build.name anchor number
          return number

/-- Reads a node unless a token says that it is left out. -/
def optional : Nat → Style → Bool → Build Nat
  | 0, _, _ => throw .malformed
  | fuel + 1, style, indentless => do
    if style.endsValue (← peek) then empty else node fuel (!style.isFlow) indentless

/-- Reads the entries of a collection up to its end. -/
def entries : Nat → Style → Bool → Entries → Build Entries
  | 0, _, _, _ => throw .malformed
  | fuel + 1, style, first, done => do
    match style with
    | .blockSequence =>
      if ← accept .blockEntry then
        let item ← optional fuel style false
        entries fuel style false ((item, none) :: done)
      else if ← accept .blockEnd then return done
      else throw .malformed
    | .indentlessSequence =>
      if ← accept .blockEntry then
        let item ← optional fuel style false
        entries fuel style false ((item, none) :: done)
      else return done
    | .blockMapping =>
      if ← accept .key then
        let key ← optional fuel style true
        let value ← if ← accept .value then optional fuel style true else empty
        entries fuel style false ((key, some value) :: done)
      else if ← accept .blockEnd then return done
      else throw .malformed
    | .flowSequence =>
      if ← accept .flowSequenceEnd then return done
      if !first && !(← accept .flowEntry) then throw .malformed
      if ← accept .key then
        let number ← add ⟨.mapping, .mapping []⟩
        let key ← if (← peek) == .value then empty else optional fuel style false
        let value ← if ← accept .value then optional fuel style false else empty
        fill number (.mapping [(key, value)])
        entries fuel style false ((number, none) :: done)
      else if ← accept .flowSequenceEnd then return done
      else
        let item ← node fuel false false
        entries fuel style false ((item, none) :: done)
    | .flowMapping =>
      if ← accept .flowMappingEnd then return done
      if !first && !(← accept .flowEntry) then throw .malformed
      if ← accept .key then
        let key ← if (← peek) == .value then empty else optional fuel style false
        let value ← if ← accept .value then optional fuel style false else empty
        entries fuel style false ((key, some value) :: done)
      else if ← accept .flowMappingEnd then return done
      else
        let key ← node fuel false false
        let value ← empty
        entries fuel style false ((key, some value) :: done)

end

/-! ## Documents -/

/-- Reads the directives before a document; `version` says whether one named a version. -/
def directives : Nat → Bool → List (String × String) → Build (List (String × String))
  | 0, _, handles => return handles
  | fuel + 1, version, handles => do
    match ← peek with
    | .directive (.version major _) =>
      skip
      if version || major != 1 then throw .malformed
      directives fuel true handles
    | .directive (.tagHandle handle meaning) =>
      skip
      if (handles.lookup handle).isSome then throw .malformed
      directives fuel version ((handle, meaning) :: handles)
    | .directive .other =>
      skip
      directives fuel version handles
    | _ => return handles

/-- Skips the marks of the end of a document. -/
def skipEnds : Nat → Build Unit
  | 0 => return ()
  | fuel + 1 => do
    if ← accept .documentEnd then skipEnds fuel else return ()

/-- Whether a document without content ends before a token. -/
def endsDocument : Token → Bool
  | .directive _ => true
  | .documentStart => true
  | .documentEnd => true
  | .streamEnd => true
  | _ => false

/-- Reads the only document of a text, if there is one. -/
def document (fuel : Nat) : Build (Option Nat) := do
  let token ← peek
  if token == .streamEnd then return none
  let root ←
    if token == .documentEnd || !endsDocument token then do
      modify fun b => { b with handles := defaultHandles }
      node fuel true false
    else do
      let handles ← directives fuel false []
      modify fun b => { b with handles := handles ++ defaultHandles }
      if !(← accept .documentStart) then throw .malformed
      if endsDocument (← peek) then empty else node fuel true false
  skipEnds fuel
  if (← peek) != .streamEnd then throw .malformed
  return some root

end Build

/-- The document that tokens make up, if there is one. The fuel of every step is used up by tokens,
at most two steps to a token. -/
def Document.ofTokens (list : TokenList) : Except Fault (Option Document) := do
  let fuel := 3 * list.tokens.length + 4
  let (root, b) ← (Build.document fuel).run
    { tokens := list.tokens, fault := list.fault.getD .malformed }
  return root.map fun root => ⟨b.nodes, root⟩

end Yaml

end Minifier
