import Minifier.Yaml.Scalar
import Minifier.Yaml.Token.Stream

/-!
# Values of YAML

The values of a document, by the numbers of its nodes. Collections are made level by level, from the
outermost one inwards, and each node once, so a document may contain itself. A mapping that merges
others takes their entries first. Main definitions: `Values.ofDocument`, `Yaml.read`.
-/

set_option autoImplicit false

namespace Minifier

namespace Yaml

/-- A value. Others are named by their numbers. -/
inductive Value where
  | scalar (value : Scalar)
  | list (items : List Nat)
  | pairs (count : Nat)
  | mapping (entries : List (Scalar × Nat))
  | set (members : List Scalar)
  deriving DecidableEq, Repr

/-- The values of a document and the number of the outermost one, if there is one. -/
structure Values where
  values : Array (Option Value)
  root : Option Nat

/-- A value by its number. -/
def Values.at (values : Values) (number : Nat) : Value :=
  ((values.values[number]?).join).getD (.scalar .null)

/-- The outermost value. A text without a document has none. -/
def Values.outermost (values : Values) : Value :=
  match values.root with
  | some root => values.at root
  | none => .scalar .null

/-- The state of making values: the nodes, the values so far, and the collections still to be
filled, latest first. -/
structure Making where
  nodes : Array Node
  values : Array (Option Value)
  waiting : List Nat

/-- A step of making values. -/
abbrev Make := StateT Making (Except Fault)

namespace Make

/-- A node by its number. -/
def nodeAt (number : Nat) : Make Node := do
  match (← get).nodes[number]? with
  | some node => return node
  | none => throw .malformed

/-- Sets a value. -/
def put (number : Nat) (value : Value) : Make Unit :=
  modify fun m => { m with values := m.values.setIfInBounds number (some value) }

/-- Sets the value of a collection that is to be filled. -/
def putWaiting (number : Nat) (value : Value) : Make Unit := do
  put number value
  modify fun m => { m with waiting := number :: m.waiting }

/-- The text of a node that counts as a scalar: its own, or that of the default value of a
mapping. -/
def scalarText : Nat → Nat → Make (List Char)
  | 0, _ => throw .malformed
  | fuel + 1, number => do
    match (← nodeAt number).content with
    | .scalar text => return text
    | .sequence _ => throw .malformed
    | .mapping pairs =>
      let defaults ← pairs.filterM fun (key, _) => do return (← nodeAt key).tag == .value
      match defaults with
      | (_, value) :: _ => scalarText fuel value
      | [] => throw .malformed

/-- Makes the value of a node, unless it has one; collections stay empty for now. -/
def make (number : Nat) : Make Value := do
  match ((← get).values[number]?).join with
  | some value => return value
  | none =>
    let node ← nodeAt number
    let value ← match node.tag with
      | .sequence => pure (.list [])
      | .mapping => pure (.mapping [])
      | .orderedMapping => pure (.pairs 0)
      | .pairs => pure (.pairs 0)
      | .set => pure (.set [])
      | tag => do
        if tag == .merge || tag == .value || tag == .unknown then throw .malformed
        let text ← scalarText ((← get).nodes.size + 1) number
        let scalar ← (Scalar.ofText tag text : Except Fault Scalar)
        pure (.scalar scalar)
    match value with
    | .scalar _ => put number value
    | _ => putWaiting number value
    return value

/-! ## Merging -/

/-- The pairs of a node, which has to be a mapping. -/
def pairsOf (number : Nat) : Make (List (Nat × Nat)) := do
  match (← nodeAt number).content with
  | .mapping pairs => return pairs
  | _ => throw .malformed

/-- Replaces the pairs of a node. -/
def setPairs (number : Nat) (pairs : List (Nat × Nat)) : Make Unit :=
  modify fun m =>
    { m with nodes := m.nodes.modify number fun node => { node with content := .mapping pairs } }

/-- Makes a key that is written as an equals sign a text. -/
def settleKey (number : Nat) : Make Unit :=
  modify fun m =>
    { m with nodes := m.nodes.modify number fun node =>
        if node.tag == .value then { node with tag := .text } else node }

/-- Puts the pairs of merged mappings before those of a mapping. `merge` merges the mappings of a
node, which have been merged themselves. -/
def mergeInto (merge : Nat → Make Unit) (number : Nat) : Make Unit := do
  let pairs ← pairsOf number
  let merging ← pairs.filterM fun (key, _) => do return (← nodeAt key).tag == .merge
  let own ← pairs.filterM fun (key, _) => do return (← nodeAt key).tag != .merge
  own.forM fun (key, _) => settleKey key
  setPairs number own
  let merged ← merging.mapM fun (_, value) => do
    match (← nodeAt value).content with
    | .mapping _ =>
      merge value
      pairsOf value
    | .sequence items =>
      let lists ← items.mapM fun item => do
        match (← nodeAt item).content with
        | .mapping _ =>
          merge item
          pairsOf item
        | _ => throw .malformed
      return lists.reverse.flatten
    | .scalar _ => throw .malformed
  setPairs number (merged.flatten ++ (← pairsOf number))

/-- Puts the pairs of merged mappings before those of a mapping, and of those first; every mapping
merges others once, which bounds the depth. -/
def mergeAll : Nat → Nat → Make Unit
  | 0 => fun _ => return ()
  | fuel + 1 => mergeInto (mergeAll fuel)

/-! ## Filling collections -/

/-- Puts an entry into a mapping: in the place of the one with the same key, or last. -/
def putEntry (key : Scalar) (value : Nat) : List (Scalar × Nat) → List (Scalar × Nat)
  | [] => [(key, value)]
  | (other, old) :: rest =>
    if other.sameKey key then (other, value) :: rest else (other, old) :: putEntry key value rest

/-- The entries of a mapping; a key has to be a scalar. -/
def mappingEntries (number : Nat) : Make (List (Scalar × Nat)) := do
  let _ ← pairsOf number
  mergeAll ((← get).nodes.size + 1) number
  let pairs ← pairsOf number
  pairs.foldlM (fun entries (key, value) => do
    match ← make key with
    | .scalar scalar =>
      let _ ← make value
      return putEntry scalar value entries
    | _ => throw .malformed) []

/-- Makes the key and the value of a mapping of one pair. -/
def makePair (number : Nat) : Make Unit := do
  match ← pairsOf number with
  | [(key, value)] =>
    let _ ← make key
    let _ ← make value
  | _ => throw .malformed

/-- The items of a node, which has to be a sequence. -/
def itemsOf (number : Nat) : Make (List Nat) := do
  match (← nodeAt number).content with
  | .sequence items => return items
  | _ => throw .malformed

/-- Fills a collection. -/
def fill (number : Nat) : Make Unit := do
  match ((← get).values[number]?).join with
  | some (.list _) =>
    let items ← itemsOf number
    items.forM fun item => do
      let _ ← make item
    put number (.list items)
  | some (.pairs _) =>
    let items ← itemsOf number
    items.forM makePair
    put number (.pairs items.length)
  | some (.mapping _) => put number (.mapping (← mappingEntries number))
  | some (.set _) => put number (.set ((← mappingEntries number).map Prod.fst))
  | _ => return ()

/-- Fills the collections that wait, and then those that they contain. -/
def fillAll : Nat → Make Unit
  | 0 => return ()
  | fuel + 1 => do
    let waiting := (← get).waiting.reverse
    modify fun m => { m with waiting := [] }
    if waiting.isEmpty then return ()
    waiting.forM fill
    fillAll fuel

end Make

/-- The values of a document. -/
def Values.ofDocument (document : Document) : Except Fault Values := do
  let count := document.nodes.size
  let all : Make Unit := do
    let _ ← Make.make document.root
    Make.fillAll (count + 1)
  let (_, made) ← all.run ⟨document.nodes, Array.replicate count none, []⟩
  return ⟨made.values, some document.root⟩

/-- Reads the values of a text. -/
def read (text : String) : Except Fault Values := do
  let chars := text.toList
  if !chars.all isAllowed then throw .malformed
  match ← Document.ofTokens (TokenList.ofText chars) with
  | some document => Values.ofDocument document
  | none => return ⟨#[], none⟩

end Yaml

end Minifier
