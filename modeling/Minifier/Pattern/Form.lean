/-!
# Patterns as written

The parts of a pattern and the modes that its flags switch. A `Form` says what is written; what it
means under the modes in force is settled by `Pattern.Program`.
-/

set_option autoImplicit false

namespace Minifier

namespace Pattern

/-- Why a pattern cannot be used: it is malformed, it repeats something too often, or it asks for
the ASCII and the Unicode alphabet at once. -/
inductive Fault where
  | malformed
  | repeatTooLarge
  | numeralTooLong (digits : Nat)
  | mixedAlphabets
  deriving DecidableEq, Repr

/-- The classes of characters that have a letter of their own. -/
inductive Category where
  | digit
  | blank
  | word
  deriving DecidableEq, Repr

/-- A member of a set: a range of code points, or a class or its complement. -/
inductive SetItem where
  | range (first last : Nat)
  | category (category : Category) (negated : Bool)
  deriving DecidableEq, Repr

/-- The places that a pattern can ask for. -/
inductive Place where
  | lineStart
  | lineEnd
  | textStart
  | textEnd
  | wordEdge
  | noWordEdge
  deriving DecidableEq, Repr

/-- How eagerly a repetition takes its items, and whether it gives any back. -/
inductive Greed where
  | greedy
  | lazy
  | possessive
  deriving DecidableEq, Repr

/-- The modes of a pattern, each on or off. -/
structure Modes where
  ignoreCase : Bool := false
  multiline : Bool := false
  dotAll : Bool := false
  verbose : Bool := false
  ascii : Bool := false
  unicode : Bool := false
  template : Bool := false
  deriving DecidableEq, Repr

/-- The modes that are on in one of two records. -/
def Modes.union (a b : Modes) : Modes where
  ignoreCase := a.ignoreCase || b.ignoreCase
  multiline := a.multiline || b.multiline
  dotAll := a.dotAll || b.dotAll
  verbose := a.verbose || b.verbose
  ascii := a.ascii || b.ascii
  unicode := a.unicode || b.unicode
  template := a.template || b.template

/-- The modes of the first record that are off in the second. -/
def Modes.without (a b : Modes) : Modes where
  ignoreCase := a.ignoreCase && !b.ignoreCase
  multiline := a.multiline && !b.multiline
  dotAll := a.dotAll && !b.dotAll
  verbose := a.verbose && !b.verbose
  ascii := a.ascii && !b.ascii
  unicode := a.unicode && !b.unicode
  template := a.template && !b.template

/-- Whether two records have a mode in common. -/
def Modes.meets (a b : Modes) : Bool :=
  (a.ignoreCase && b.ignoreCase) || (a.multiline && b.multiline) || (a.dotAll && b.dotAll) ||
    (a.verbose && b.verbose) || (a.ascii && b.ascii) || (a.unicode && b.unicode) ||
    (a.template && b.template)

/-- The modes after some are switched on and others off; a new alphabet replaces the old one. -/
def Modes.change (modes on off : Modes) : Modes :=
  let base := if on.ascii || on.unicode then { modes with ascii := false, unicode := false }
    else modes
  (base.union on).without off

/-- A pattern as written. The bounds of a repetition are its least and, if any, its greatest
number of items. -/
inductive Form where
  | empty
  | set (negated : Bool) (items : List SetItem)
  | anyGlyph
  | place (place : Place)
  | seq (first second : Form)
  | alt (first second : Form)
  | group (index : Option Nat) (on off : Modes) (body : Form)
  | atomic (body : Form)
  | look (ahead negated : Bool) (body : Form)
  | backref (index : Nat)
  | conditional (index : Nat) (yes no : Form)
  | repeated (least : Nat) (most : Option Nat) (greed : Greed) (body : Form)
  deriving DecidableEq, Repr

/-- The form of one given code point. -/
def Form.literal (code : Nat) : Form :=
  .set false [.range code code]

/-- The forms of a list one after another. -/
def Form.all : List Form → Form
  | [] => .empty
  | [form] => form
  | form :: rest => .seq form (Form.all rest)

/-- A greatest width that no text reaches; widths above it are not told apart. -/
def widthLimit : Nat :=
  Nat.pow 2 64

/-- The number of repetitions that stands for "any". -/
def repeatLimit : Nat :=
  4294967295

/-- The least and the greatest number of glyphs that a form takes, given those of the groups. -/
def Form.width (groups : List (Nat × Nat × Nat)) : Form → Nat × Nat
  | .empty => (0, 0)
  | .set _ _ => (1, 1)
  | .anyGlyph => (1, 1)
  | .place _ => (0, 0)
  | .seq first second =>
    let (a, b) := first.width groups
    let (c, d) := second.width groups
    (min (a + c) widthLimit, min (b + d) widthLimit)
  | .alt first second =>
    let (a, b) := first.width groups
    let (c, d) := second.width groups
    (min a c, max b d)
  | .group _ _ _ body => body.width groups
  | .atomic body => body.width groups
  | .look _ _ _ => (0, 0)
  | .backref index => (groups.lookup index).getD (0, 0)
  | .conditional _ yes no =>
    let (a, b) := yes.width groups
    let (c, d) := no.width groups
    (min a c, max b d)
  | .repeated least most _ body =>
    let (a, b) := body.width groups
    let widest := match most with
      | some most => b * most
      | none => if b = 0 then 0 else widthLimit
    (min (a * least) widthLimit, min widest widthLimit)

end Pattern

end Minifier
