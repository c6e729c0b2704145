import Minifier.Pattern.Program
import Minifier.Text.Glyph

/-!
# Matching

A match is searched by backtracking: `Node.run` reads a node at a cursor and hands every way of
doing so, in order of preference, to what is to come, until that succeeds. A repetition takes no
second empty item in a row, so it ends after at most as many items as there are glyphs left, plus
one. Main definitions: `Node.run`, `Node.find?`, `Node.deleteAll`, `Node.deleteFirst`.
-/

set_option autoImplicit false

namespace Minifier

namespace Pattern

/-- A place in a text: the glyphs before it, nearest first, their number, the glyphs after it, their
number, and what the groups have captured so far, latest first. -/
structure Cursor where
  before : Text
  index : Nat
  rest : Text
  left : Nat
  groups : List (Nat × Text)

/-- The start of a text. -/
def Cursor.start (text : Text) : Cursor :=
  ⟨[], 0, text, text.length, []⟩

/-- What is to come after a node: it succeeds with the cursor where the match ends, or fails. -/
abbrev Continuation := Cursor → Option Cursor

namespace Cursor

/-- The cursor behind the next glyph, which is given with those after it. -/
def past (g : Glyph) (rest : Text) (s : Cursor) : Cursor :=
  { s with before := g :: s.before, index := s.index + 1, rest, left := s.left - 1 }

/-- Moves over the next glyph if a class contains it. -/
def step? (c : GlyphClass) (s : Cursor) : Option Cursor :=
  match s.rest with
  | [] => none
  | g :: rest => if c.contains g.code then some (s.past g rest) else none

/-- Moves back over a number of glyphs. -/
def back? : Nat → Cursor → Option Cursor
  | 0, s => some s
  | width + 1, s =>
    match s.before with
    | [] => none
    | g :: before =>
      back? width { s with before, index := s.index - 1, rest := g :: s.rest, left := s.left + 1 }

/-- The cursors after no, one, two, … glyphs of a class, at most a given number. -/
def advances (c : GlyphClass) : Nat → Cursor → List Cursor
  | 0, s => [s]
  | limit + 1, s =>
    match s.step? c with
    | some next => s :: advances c limit next
    | none => [s]

/-- Moves over exactly a number of glyphs of a class. -/
def steps? (c : GlyphClass) : Nat → Cursor → Option Cursor
  | 0, s => some s
  | count + 1, s => (s.step? c).bind (steps? c count)

/-- Moves over as few glyphs of a class as let `next` succeed, at most a given number. -/
def fewest (c : GlyphClass) (next : Continuation) : Nat → Continuation
  | 0, s => next s
  | limit + 1, s => (next s).orElse fun _ => (s.step? c).bind (fewest c next limit)

/-- Moves over a text that agrees with a given one. -/
def follow? (folding : Folding) : Text → Cursor → Option Cursor
  | [], s => some s
  | g :: text, s =>
    match s.rest with
    | [] => none
    | h :: rest =>
      if folding.fold g.code = folding.fold h.code then follow? folding text (s.past h rest)
      else none

/-- Whether a glyph is a word character of the alphabet in force. -/
def isWordGlyph (asciiOnly : Bool) (g : Glyph) : Bool :=
  Category.word.contains asciiOnly g.code

/-- Whether a cursor stands at a place. A text without glyphs has neither edges of words nor
places between them. -/
def isAt (s : Cursor) : Anchoring → Bool
  | .textStart => s.before.isEmpty
  | .lineStart => s.before.head?.all (· == .char '\n')
  | .textEnd => s.rest.isEmpty
  | .lineEnd => s.rest.head?.all (· == .char '\n')
  | .lastLineEnd => s.rest.isEmpty || s.rest == [.char '\n']
  | .wordEdge asciiOnly negated =>
    if s.before.isEmpty && s.rest.isEmpty then false
    else
      (s.before.head?.any (isWordGlyph asciiOnly) != s.rest.head?.any (isWordGlyph asciiOnly)) !=
        negated

end Cursor

/-- Reads an item exactly a number of times. -/
def exactly (item : Continuation → Continuation) (next : Continuation) : Nat → Continuation
  | 0, s => next s
  | count + 1, s => item (fun s => exactly item next count s) s

/-- Reads an item up to a number of times. `last` is where the item before started: an item is
tried only if that one moved on. -/
def upTo (item : Continuation → Continuation) (next : Continuation) (greedy : Bool) :
    Nat → Option Nat → Continuation
  | 0, _, s => next s
  | limit + 1, last, s =>
    if last = some s.index then next s
    else
      let again (_ : Unit) : Option Cursor :=
        item (fun e => upTo item next greedy limit (some s.index) e) s
      if greedy then (again ()).orElse fun _ => next s
      else (next s).orElse again

/-- Reads an item as often as it can be read, up to a number of times, and gives nothing back. -/
def exhaust (item : Continuation → Continuation) : Nat → Option Nat → Cursor → Cursor
  | 0, _, s => s
  | limit + 1, last, s =>
    if last = some s.index then s
    else
      match item some s with
      | some e => exhaust item limit (some s.index) e
      | none => s

/-- The most items that a repetition may take after its least number, at a cursor with a given
number of glyphs left. -/
def spare (least : Nat) (most : Option Nat) (left : Nat) : Nat :=
  match most with
  | some most => min (most - least) (left + 1)
  | none => left + 1

/-- Reads a node at a cursor and goes on with `next`, backtracking until that succeeds. -/
def Node.run : Node → Continuation → Continuation
  | .empty, next, s => next s
  | .one c, next, s =>
    match s.step? c with
    | some e => next e
    | none => none
  | .place spot, next, s => if s.isAt spot then next s else none
  | .seq first second, next, s => first.run (fun e => second.run next e) s
  | .alt first second, next, s => (first.run next s).orElse fun _ => second.run next s
  | .capture index body, next, s =>
    body.run (fun e =>
      let taken := s.rest.take (e.index - s.index)
      next { e with groups := (index, taken) :: e.groups }) s
  | .atomic body, next, s =>
    match body.run some s with
    | some e => next e
    | none => none
  | .ahead negated body, next, s =>
    match body.run some s with
    | some e => if negated then none else next { s with groups := e.groups }
    | none => if negated then next s else none
  | .behind width negated body, next, s =>
    match (s.back? width).bind (body.run some) with
    | some e => if negated then none else next { s with groups := e.groups }
    | none => if negated then next s else none
  | .backref index folding, next, s =>
    match s.groups.lookup index with
    | some text => (s.follow? folding text).bind next
    | none => none
  | .conditional index yes no, next, s =>
    if (s.groups.lookup index).isSome then yes.run next s else no.run next s
  | .several c least most greed, next, s =>
    let limit := match most with
      | some most => min most s.left
      | none => s.left
    match greed with
    | .greedy => ((s.advances c limit).drop least).reverse.findSome? next
    | .lazy => (s.steps? c least).bind (Cursor.fewest c next (limit - least))
    | .possessive => ((s.advances c limit).drop least).getLast?.bind next
  | .repeated least most greed body, next, s =>
    match greed with
    | .possessive =>
      match exactly (fun k s => (body.run some s).bind k) some least s with
      | some e => next (exhaust (fun k s => body.run k s) (spare least most e.left) none e)
      | none => none
    | greed =>
      exactly (fun k s => body.run k s)
        (fun e =>
          upTo (fun k s => body.run k s) next (greed == .greedy)
            (spare least most e.left) none e)
        least s

/-- Matches a node at a cursor. Where the match must move on, one that takes nothing is passed
over. -/
def Node.matchAt? (node : Node) (mustMove : Bool) (s : Cursor) : Option Cursor :=
  node.run (fun e => if mustMove && e.index = s.index then none else some e) s

/-- A match in a text: what is passed over before it, nearest first, whether it takes nothing, and
the cursor at its end. -/
structure Found where
  passed : Text
  isEmpty : Bool
  after : Cursor

/-- The leftmost match in the text `rest` that `before` precedes; `passed` collects what is passed
over. The numbers of glyphs before and after the place are given. -/
def Node.findFrom? (node : Node) (mustMove : Bool) (before passed : Text) (index left : Nat) :
    Text → Option Found
  | [] =>
    (node.matchAt? mustMove ⟨before, index, [], left, []⟩).map fun e => ⟨passed, e.index = index, e⟩
  | g :: rest =>
    match node.matchAt? mustMove ⟨before, index, g :: rest, left, []⟩ with
    | some e => some ⟨passed, e.index = index, e⟩
    | none => node.findFrom? false (g :: before) (g :: passed) (index + 1) (left - 1) rest

/-- The leftmost match in a text. -/
def Node.find? (node : Node) (text : Text) : Option Found :=
  node.findFrom? false [] [] 0 text.length text

/-- Deletes the matches from a cursor on, left to right without overlap. After an empty match the
next one must move on, so twice the length of the text, and one, is fuel enough. -/
def Node.deleteFrom (node : Node) : Nat → Bool → Cursor → Text
  | 0, _, s => s.rest
  | fuel + 1, mustMove, s =>
    match node.findFrom? mustMove s.before [] s.index s.left s.rest with
    | none => s.rest
    | some found => found.passed.reverse ++ node.deleteFrom fuel found.isEmpty found.after

/-- Deletes every match in a text. -/
def Node.deleteAll (node : Node) (text : Text) : Text :=
  node.deleteFrom (2 * text.length + 2) false (Cursor.start text)

/-- Deletes the leftmost match in a text. -/
def Node.deleteFirst (node : Node) (text : Text) : Text :=
  match node.find? text with
  | none => text
  | some found => found.passed.reverse ++ found.after.rest

end Pattern

end Minifier
