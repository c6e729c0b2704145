/-!
# Places in a YAML text

A cursor knows what is left of a text and where it stands: index, line and column. The end of the
text reads as the null character, which no YAML text holds.
-/

set_option autoImplicit false

namespace Minifier

namespace Yaml

/-- The character that stands for the end of a text. -/
def endMark : Char :=
  '\x00'

/-- Whether a character ends a line. -/
def isBreak (c : Char) : Bool :=
  c == '\n' || c == '\r' || c == '\u0085' || c == '\u2028' || c == '\u2029'

/-- Whether a character ends a line or the text. -/
def isBreakOrEnd (c : Char) : Bool :=
  isBreak c || c == endMark

/-- Whether a character is a space, or ends a line or the text. -/
def isSpaceOrEnd (c : Char) : Bool :=
  isBreakOrEnd c || c == ' '

/-- Whether a character is a space or a tab, or ends a line or the text. -/
def isBlankOrEnd (c : Char) : Bool :=
  isSpaceOrEnd c || c == '\t'

/-- Whether a character may stand in a YAML text. -/
def isAllowed (c : Char) : Bool :=
  let n := c.toNat
  n == 0x9 || n == 0xA || n == 0xD || n == 0x85 || (0x20 ≤ n && n ≤ 0x7E) ||
    (0xA0 ≤ n && n ≤ 0xD7FF) || (0xE000 ≤ n && n ≤ 0xFFFD) || 0x10000 ≤ n

/-- A place in a text. -/
structure Cursor where
  rest : List Char
  index : Nat
  line : Nat
  column : Nat
  deriving DecidableEq, Repr

namespace Cursor

/-- The start of a text. -/
def start (text : List Char) : Cursor :=
  ⟨text, 0, 0, 0⟩

/-- The next character. -/
def peek (s : Cursor) : Char :=
  s.rest.headD endMark

/-- The character after a number of others. -/
def peekAt (s : Cursor) (offset : Nat) : Char :=
  (s.rest.drop offset).headD endMark

/-- Moves over one character. A byte order mark takes no column. -/
def step (s : Cursor) : Cursor :=
  match s.rest with
  | [] => s
  | c :: rest =>
    if isBreak c && !(c == '\r' && rest.head? == some '\n') then ⟨rest, s.index + 1, s.line + 1, 0⟩
    else if c == '\uFEFF' then ⟨rest, s.index + 1, s.line, s.column⟩
    else ⟨rest, s.index + 1, s.line, s.column + 1⟩

/-- Moves over a number of characters. -/
def forward : Nat → Cursor → Cursor
  | 0, s => s
  | count + 1, s => forward count s.step

/-- The characters up to the first one without a property, and the place behind them. -/
def takeWhile (s : Cursor) (p : Char → Bool) : List Char × Cursor :=
  let taken := s.rest.takeWhile p
  (taken, s.forward taken.length)

/-- The place behind the characters with a property. -/
def skipWhile (s : Cursor) (p : Char → Bool) : Cursor :=
  (s.takeWhile p).2

/-- The place at the end of the line. -/
def skipLine (s : Cursor) : Cursor :=
  s.skipWhile fun c => !isBreakOrEnd c

/-- Reads the end of a line, if the cursor stands at one. All ends but the two separators of
Unicode count as a line feed. -/
def lineBreak (s : Cursor) : List Char × Cursor :=
  match s.rest with
  | '\r' :: '\n' :: _ => (['\n'], s.forward 2)
  | c :: _ =>
    if c == '\u2028' || c == '\u2029' then ([c], s.step)
    else if isBreak c then (['\n'], s.step)
    else ([], s)
  | [] => ([], s)

/-- Whether three given characters stand at the cursor, alone. -/
def hasSeparator (s : Cursor) (mark : Char) : Bool :=
  s.peekAt 0 == mark && s.peekAt 1 == mark && s.peekAt 2 == mark && isBlankOrEnd (s.peekAt 3)

/-- Whether the marker of a new document or of the end of one stands at the cursor. -/
def atDocumentMark (s : Cursor) : Bool :=
  s.hasSeparator '-' || s.hasSeparator '.'

end Cursor

end Yaml

end Minifier
