import Minifier.Yaml.Cursor
import Minifier.Yaml.Fault

/-!
# Scalars of YAML

A scalar is written between quotes, as a block below a header, or plainly. Each way has rules of its
own for spaces and ends of lines.
-/

set_option autoImplicit false

namespace Minifier

namespace Yaml

/-- A text that was read, and the place behind it. -/
abbrev Reading := Except Fault (List Char × Cursor)

/-! ## Quoted scalars -/

/-- The characters that a letter after a backslash stands for. -/
def escapes : List (Char × Char) :=
  [('0', '\x00'), ('a', '\x07'), ('b', '\x08'), ('t', '\t'), ('\t', '\t'), ('n', '\n'),
    ('v', '\x0B'), ('f', '\x0C'), ('r', '\r'), ('e', '\x1B'), (' ', ' '), ('"', '"'),
    ('\\', '\\'), ('/', '/'), ('N', '\u0085'), ('_', '\u00A0'), ('L', '\u2028'), ('P', '\u2029')]

/-- The number of hexadecimal digits after a letter that starts a code. -/
def escapeWidth? : Char → Option Nat
  | 'x' => some 2
  | 'u' => some 4
  | 'U' => some 8
  | _ => none

/-- The value of a hexadecimal digit. -/
def hexDigit? (c : Char) : Option Nat :=
  if '0' ≤ c && c ≤ '9' then some (c.toNat - 48)
  else if 'a' ≤ c && c ≤ 'f' then some (c.toNat - 87)
  else if 'A' ≤ c && c ≤ 'F' then some (c.toNat - 55)
  else none

/-- The number that hexadecimal digits write; every character has to be one. -/
def hexNumber? (digits : List Char) : Option Nat :=
  digits.foldlM (fun n c => (hexDigit? c).map fun d => n * 16 + d) 0

/-- Reads the ends of lines and the blanks around them inside quotes; no mark of a document may
stand between them. -/
def quotedBreaks : Nat → Cursor → Reading
  | 0, s => .ok ([], s)
  | fuel + 1, s =>
    if s.atDocumentMark then .error .malformed
    else
      let s := s.skipWhile fun c => c == ' ' || c == '\t'
      if isBreak s.peek then do
        let (first, s) := s.lineBreak
        let (others, s) ← quotedBreaks fuel s
        return (first ++ others, s)
      else .ok ([], s)

/-- Reads what follows a backslash. -/
def escaped (s : Cursor) : Reading :=
  let c := s.peek
  match escapes.lookup c with
  | some replacement => .ok ([replacement], s.step)
  | none =>
    match escapeWidth? c with
    | some width =>
      let digits := (s.step.rest).take width
      match hexNumber? digits with
      | some code =>
        if digits.length < width then .error .malformed
        else if 0x10FFFF < code then .error (.codePoint code)
        else .ok ([Char.ofNat code], s.step.forward width)
      | none => .error .malformed
    | none =>
      if isBreak c then
        let s := s.lineBreak.2
        quotedBreaks (s.rest.length + 1) s
      else .error .malformed

/-- Whether a character needs a look inside quotes. -/
def isQuotedSpecial (c : Char) : Bool :=
  isBlankOrEnd c || c == '\'' || c == '"' || c == '\\'

/-- Reads inside quotes up to a blank or to what may be the closing quote. -/
def quotedWords (double : Bool) : Nat → Cursor → Reading
  | 0, s => .ok ([], s)
  | fuel + 1, s => do
    let (word, s) := s.takeWhile fun c => !isQuotedSpecial c
    let c := s.peek
    if !double && c == '\'' && s.peekAt 1 == '\'' then
      let (others, s) ← quotedWords double fuel (s.forward 2)
      return (word ++ '\'' :: others, s)
    else if (double && c == '\'') || (!double && (c == '"' || c == '\\')) then
      let (others, s) ← quotedWords double fuel s.step
      return (word ++ c :: others, s)
    else if double && c == '\\' then
      let (replacement, s) ← escaped s.step
      let (others, s) ← quotedWords double fuel s
      return (word ++ replacement ++ others, s)
    else return (word, s)

/-- The text of an end of line and of the empty lines after it: a single end becomes a space. -/
def foldBreaks (lineBreak breaks : List Char) : List Char :=
  if lineBreak != ['\n'] then lineBreak ++ breaks
  else if breaks.isEmpty then [' ']
  else breaks

/-- Reads blanks and ends of lines inside quotes. -/
def quotedSpaces (s : Cursor) : Reading :=
  let (blanks, s) := s.takeWhile fun c => c == ' ' || c == '\t'
  let c := s.peek
  if c == endMark then .error .malformed
  else if isBreak c then do
    let (lineBreak, s) := s.lineBreak
    let (breaks, s) ← quotedBreaks (s.rest.length + 1) s
    return (foldBreaks lineBreak breaks, s)
  else .ok (blanks, s)

/-- Reads up to the closing quote, and over it. -/
def quotedRest (double : Bool) : Nat → Cursor → Reading
  | 0, _ => .error .malformed
  | fuel + 1, s => do
    let (words, s) ← quotedWords double (s.rest.length + 1) s
    if s.peek == (if double then '"' else '\'') then return (words, s.step)
    let (spaces, s) ← quotedSpaces s
    let (others, s) ← quotedRest double fuel s
    return (words ++ spaces ++ others, s)

/-- Reads a scalar between quotes, at its opening quote. -/
def quotedScalar (s : Cursor) : Reading :=
  quotedRest (s.peek == '"') (s.rest.length + 1) s.step

/-! ## Block scalars -/

/-- What becomes of the ends of lines at the end of a block: one is kept, all are, or none. -/
inductive Chomping where
  | clip
  | keep
  | strip
  deriving DecidableEq, Repr

/-- Reads the sign of a header, if there is one. -/
def chompingSign? (s : Cursor) : Option Chomping :=
  if s.peek == '+' then some .keep else if s.peek == '-' then some .strip else none

/-- Reads the indentation of a header, if there is one. -/
def indentationDigit? (s : Cursor) : Option Nat :=
  let c := s.peek
  if '0' ≤ c && c ≤ '9' then some (c.toNat - 48) else none

/-- Reads the header of a block, its sign and its indentation in either order. -/
def blockHeader (s : Cursor) : Except Fault (Chomping × Option Nat × Cursor) := do
  let (chomping, indentation, s) := match chompingSign? s with
    | some chomping =>
      match indentationDigit? s.step with
      | some n => (chomping, some n, s.forward 2)
      | none => (chomping, none, s.step)
    | none =>
      match indentationDigit? s with
      | some n =>
        match chompingSign? s.step with
        | some chomping => (chomping, some n, s.forward 2)
        | none => (.clip, some n, s.step)
      | none => (.clip, none, s)
  if indentation = some 0 then throw .malformed
  if !isSpaceOrEnd s.peek then throw .malformed
  return (chomping, indentation, s)

/-- Skips blanks and a comment up to the end of a line, and over it. -/
def restOfLine (s : Cursor) : Except Fault Cursor :=
  let s := s.skipWhile (· == ' ')
  let s := if s.peek == '#' then s.skipLine else s
  if isBreakOrEnd s.peek then .ok s.lineBreak.2 else .error .malformed

/-- Reads the empty lines at the start of a block; also gives the largest indentation met. -/
def blockIndentation : Nat → Nat → Cursor → List Char × Nat × Cursor
  | 0, widest, s => ([], widest, s)
  | fuel + 1, widest, s =>
    if s.peek == ' ' then
      let s := s.step
      blockIndentation fuel (max widest s.column) s
    else if isBreak s.peek then
      let (first, s) := s.lineBreak
      let (others, widest, s) := blockIndentation fuel widest s
      (first ++ others, widest, s)
    else ([], widest, s)

/-- Moves over spaces up to a column. -/
def indentTo (column : Nat) (s : Cursor) : Cursor :=
  let spaces := (s.takeWhile (· == ' ')).1.length
  s.forward (min spaces (column - s.column))

/-- Reads empty lines, each with at most a given indentation. -/
def blockBreaks (indentation : Nat) : Nat → Cursor → List Char × Cursor
  | 0, s => ([], s)
  | fuel + 1, s =>
    let s := indentTo indentation s
    if isBreak s.peek then
      let (first, s) := s.lineBreak
      let (others, s) := blockBreaks indentation fuel s
      (first ++ others, s)
    else ([], s)

/-- Whether a line is indented further than its block, which keeps the ends of lines around it. -/
def opensWithBlank (s : Cursor) : Bool :=
  s.peek == ' ' || s.peek == '\t'

/-- Reads the lines of a block. `breaks` are the empty lines before the line at the cursor; the
result also gives the end of the last line and the empty lines after it. -/
def blockLines (folded : Bool) (indentation : Nat) :
    Nat → List Char → List Char → Cursor → List Char × List Char × List Char × Cursor
  | 0, lineBreak, breaks, s => ([], lineBreak, breaks, s)
  | fuel + 1, lineBreak, breaks, s =>
    if s.column != indentation || s.peek == endMark then ([], lineBreak, breaks, s)
    else
      let blank := opensWithBlank s
      let (line, s) := s.takeWhile fun c => !isBreakOrEnd c
      let (lineBreak, s) := s.lineBreak
      let (after, s) := blockBreaks indentation (s.rest.length + 1) s
      let joint : List Char :=
        if s.column != indentation || s.peek == endMark then []
        else if folded && lineBreak == ['\n'] && !blank && !opensWithBlank s then
          if after.isEmpty then [' '] else []
        else lineBreak
      let (others, lineBreak, last, s) := blockLines folded indentation fuel lineBreak after s
      (breaks ++ line ++ joint ++ others, lineBreak, last, s)

/-- Reads a block scalar at its header, inside a block of a given indentation. -/
def blockScalar (outer : Int) (s : Cursor) : Reading := do
  let folded := s.peek == '>'
  let (chomping, indentation, s) ← blockHeader s.step
  let s ← restOfLine s
  let least := (max (outer + 1) 1).toNat
  let (column, breaks, s) := match indentation with
    | none =>
      let (breaks, widest, s) := blockIndentation (s.rest.length + 1) 0 s
      (max least widest, breaks, s)
    | some n =>
      let column := least + n - 1
      let (breaks, s) := blockBreaks column (s.rest.length + 1) s
      (column, breaks, s)
  let (lines, lineBreak, last, s) := blockLines folded column (s.rest.length + 1) [] breaks s
  match chomping with
  | .clip => return (lines ++ lineBreak, s)
  | .keep => return (lines ++ lineBreak ++ last, s)
  | .strip => return (lines, s)

/-! ## Plain scalars -/

/-- Whether a character divides the entries of a flow collection. -/
def isFlowMark (c : Char) : Bool :=
  c == ',' || c == '[' || c == ']' || c == '{' || c == '}'

/-- The characters of a plain scalar up to a blank or an indicator. -/
def plainWord (flow : Bool) : List Char → List Char
  | [] => []
  | c :: rest =>
    let next := rest.headD endMark
    if isBlankOrEnd c || (c == ':' && (isBlankOrEnd next || (flow && isFlowMark next))) ||
        (flow && (isFlowMark c || c == '?')) then
      []
    else c :: plainWord flow rest

/-- Reads the empty lines after a line of a plain scalar; `none` when a mark of a document
follows. -/
def plainBreaks : Nat → Cursor → Option (List Char) × Cursor
  | 0, s => (some [], s)
  | fuel + 1, s =>
    if s.peek == ' ' then plainBreaks fuel s.step
    else if isBreak s.peek then
      let (first, s) := s.lineBreak
      if s.atDocumentMark then (none, s)
      else
        let (others, s) := plainBreaks fuel s
        (others.map (first ++ ·), s)
    else (some [], s)

/-- Reads the blanks and ends of lines after a word of a plain scalar: their text, which is empty
where the scalar ends, whether a line has ended, and the place behind. -/
def plainSpaces (s : Cursor) : List Char × Bool × Cursor :=
  let (blanks, s) := s.takeWhile (· == ' ')
  if isBreak s.peek then
    let (lineBreak, s) := s.lineBreak
    if s.atDocumentMark then ([], true, s)
    else
      match plainBreaks (s.rest.length + 1) s with
      | (none, s) => ([], true, s)
      | (some breaks, s) => (foldBreaks lineBreak breaks, true, s)
  else (blanks, false, s)

/-- Reads the words of a plain scalar; `spaces` is what stands before the word at the cursor. The
answer also says whether a line ended after the last word. -/
def plainWords (flow : Bool) (indentation : Int) :
    Nat → List Char → Bool → Cursor → List Char × Bool × Cursor
  | 0, _, ended, s => ([], ended, s)
  | fuel + 1, spaces, ended, s =>
    let word := if s.peek == '#' then [] else plainWord flow s.rest
    if word.isEmpty then ([], ended, s)
    else
      let (next, ended, s) := plainSpaces (s.forward word.length)
      if next.isEmpty || s.peek == '#' || (!flow && (s.column : Int) < indentation) then
        (spaces ++ word, ended, s)
      else
        let (others, ended, s) := plainWords flow indentation fuel next ended s
        (spaces ++ word ++ others, ended, s)

/-- Reads a plain scalar inside a block of a given indentation, and says whether a line ended after
its last word. -/
def plainScalar (flow : Bool) (outer : Int) (s : Cursor) : List Char × Bool × Cursor :=
  plainWords flow (outer + 1) (s.rest.length + 1) [] false s

end Yaml

end Minifier
