import Minifier.Pattern.CaseVariant
import Minifier.Pattern.Form
import Minifier.Text.Blank
import Minifier.Text.Word

/-!
# Patterns under modes

A `Node` is a pattern whose modes are settled: each class knows how it treats case and alphabet,
each place which glyphs end a line. `Form.resolve` settles the modes of a written pattern; it
refuses a look-behind of variable width.
-/

set_option autoImplicit false

namespace Minifier

namespace Pattern

/-- Which letters are taken for equal. -/
inductive Folding where
  | exact
  | ascii
  | unicode
  deriving DecidableEq, Repr

/-- The code points that are taken for equal to a given one. -/
def Folding.variants : Folding → Nat → List Nat
  | .exact, code => [code]
  | .ascii, code => asciiCaseVariants code
  | .unicode, code => caseVariants code

/-- The form by which code points are compared. -/
def Folding.fold : Folding → Nat → Nat
  | .exact, code => code
  | .ascii, code => if 65 ≤ code && code ≤ 90 then code + 32 else code
  | .unicode, code => lowerCode code

/-- Whether a code point belongs to a class, in ASCII or in all of Unicode. -/
def Category.contains (asciiOnly : Bool) : Category → Nat → Bool
  | .digit, code => if asciiOnly then 48 ≤ code && code ≤ 57 else isDecimalCode code
  | .blank, code =>
    if asciiOnly then code == 32 || (9 ≤ code && code ≤ 13) else isBlankCode code
  | .word, code => if asciiOnly then code < 128 && isWordCode code else isWordCode code

/-- A class of glyphs: a set or its complement, with its treatment of case and alphabet. -/
structure GlyphClass where
  negated : Bool
  items : List SetItem
  folding : Folding
  asciiOnly : Bool
  deriving DecidableEq, Repr

/-- Whether an item has one of the variants of a code point. -/
def SetItem.contains (asciiOnly : Bool) (folding : Folding) (code : Nat) : SetItem → Bool
  | .range first last => (folding.variants code).any fun v => first ≤ v && v ≤ last
  | .category kind negated => kind.contains asciiOnly (folding.fold code) != negated

/-- Whether a class contains a code point. -/
def GlyphClass.contains (c : GlyphClass) (code : Nat) : Bool :=
  (c.items.any fun item => item.contains c.asciiOnly c.folding code) != c.negated

/-- The class of all glyphs but the given ones, compared exactly. -/
def GlyphClass.allBut (items : List SetItem) : GlyphClass :=
  ⟨true, items, .exact, false⟩

/-- A place, with the way it is found. -/
inductive Anchoring where
  | textStart
  | lineStart
  | textEnd
  | lineEnd
  | lastLineEnd
  | wordEdge (asciiOnly negated : Bool)
  deriving DecidableEq, Repr

/-- A pattern whose modes are settled. A look-behind knows its width. -/
inductive Node where
  | empty
  | one (c : GlyphClass)
  | place (place : Anchoring)
  | seq (first second : Node)
  | alt (first second : Node)
  | capture (index : Nat) (body : Node)
  | atomic (body : Node)
  | ahead (negated : Bool) (body : Node)
  | behind (width : Nat) (negated : Bool) (body : Node)
  | backref (index : Nat) (folding : Folding)
  | conditional (index : Nat) (yes no : Node)
  | several (c : GlyphClass) (least : Nat) (most : Option Nat) (greed : Greed)
  | repeated (least : Nat) (most : Option Nat) (greed : Greed) (body : Node)
  deriving DecidableEq, Repr

/-- How modes treat the case of letters. -/
def Modes.folding (modes : Modes) : Folding :=
  if !modes.ignoreCase then .exact else if modes.ascii then .ascii else .unicode

/-- A place under modes. -/
def Place.resolve (modes : Modes) : Place → Anchoring
  | .lineStart => if modes.multiline then .lineStart else .textStart
  | .lineEnd => if modes.multiline then .lineEnd else .lastLineEnd
  | .textStart => .textStart
  | .textEnd => .textEnd
  | .wordEdge => .wordEdge modes.ascii false
  | .noWordEdge => .wordEdge modes.ascii true

/-- A repetition; one of a single glyph has a node of its own. -/
def Node.repetition (least : Nat) (most : Option Nat) (greed : Greed) : Node → Node
  | .one c => .several c least most greed
  | body => .repeated least most greed body

/-- Settles the modes of a form, given the widths of its groups. -/
def Form.resolve (groups : List (Nat × Nat × Nat)) : Modes → Form → Except Fault Node
  | _, .empty => .ok .empty
  | modes, .set negated items => .ok (.one ⟨negated, items, modes.folding, modes.ascii⟩)
  | modes, .anyGlyph =>
    .ok (.one (GlyphClass.allBut (if modes.dotAll then [] else [.range 10 10])))
  | modes, .place spot => .ok (.place (spot.resolve modes))
  | modes, .seq first second => do
    return .seq (← first.resolve groups modes) (← second.resolve groups modes)
  | modes, .alt first second => do
    return .alt (← first.resolve groups modes) (← second.resolve groups modes)
  | modes, .group index on off body => do
    let body ← body.resolve groups (modes.change on off)
    match index with
    | some index => return .capture index body
    | none => return body
  | modes, .atomic body => do
    return .atomic (← body.resolve groups modes)
  | modes, .look ahead negated body => do
    if ahead then
      return .ahead negated (← body.resolve groups modes)
    else
      let (least, most) := body.width groups
      if least != most || repeatLimit < least then throw .malformed
      return .behind least negated (← body.resolve groups modes)
  | modes, .backref index => .ok (.backref index modes.folding)
  | modes, .conditional index yes no => do
    return .conditional index (← yes.resolve groups modes) (← no.resolve groups modes)
  | modes, .repeated least most greed body => do
    if modes.template then throw .malformed
    return Node.repetition least most greed (← body.resolve groups modes)

end Pattern

end Minifier
