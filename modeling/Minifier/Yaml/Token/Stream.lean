import Minifier.Yaml.Token.Property

/-!
# The tokens of a YAML text

A text is read token by token. Indentation opens and closes block collections. What may turn out to
be the key of a mapping is remembered with its place, since only the colon after it says so; the
tokens that mark it as a key are then put in before it. Main definition: `TokenList.ofText`.
-/

set_option autoImplicit false

namespace Minifier

namespace Yaml

/-- A place where a key may have started: the number of tokens before it, whether it has to be a
key, and where it stands. -/
structure KeyPlace where
  token : Nat
  required : Bool
  index : Nat
  line : Nat
  column : Nat
  deriving DecidableEq, Repr

/-- The state of reading: the cursor, the tokens so far (latest first), the depth of flow
collections, the indentation in force and the ones around it, whether a key may start, and where
keys may have started, by depth. -/
structure Lexer where
  cursor : Cursor
  tokens : List Token := []
  depth : Int := 0
  indentation : Int := -1
  outer : List Int := []
  keyAllowed : Bool := true
  keys : List (Int × KeyPlace) := []
  deriving DecidableEq, Repr

namespace Lexer

/-- Whether the state is inside a flow collection. -/
def inFlow (l : Lexer) : Bool :=
  l.depth != 0

/-- Adds a token. -/
def push (token : Token) (l : Lexer) : Lexer :=
  { l with tokens := token :: l.tokens }

/-- Puts a token behind a number of others. -/
def insert (count : Nat) (token : Token) (l : Lexer) : Lexer :=
  let later := l.tokens.length - count
  { l with tokens := l.tokens.take later ++ token :: l.tokens.drop later }

/-- Moves over a number of characters. -/
def advance (count : Nat) (l : Lexer) : Lexer :=
  { l with cursor := l.cursor.forward count }

/-- The greatest length of a key that stands before its colon. -/
def keyLimit : Nat :=
  1024

/-- Whether a place has been left so far behind that no key can start there. -/
def isStale (l : Lexer) (place : KeyPlace) : Bool :=
  place.line != l.cursor.line || keyLimit < l.cursor.index - place.index

/-- Forgets the places where no key can start any more. -/
def dropStale (l : Lexer) : Except Fault Lexer :=
  if l.keys.any fun (_, place) => l.isStale place && place.required then .error .malformed
  else .ok { l with keys := l.keys.filter fun (_, place) => !l.isStale place }

/-- Forgets the place of the current depth. -/
def dropKey (l : Lexer) : Except Fault Lexer :=
  match l.keys.lookup l.depth with
  | some place =>
    if place.required then .error .malformed
    else .ok { l with keys := l.keys.filter fun (depth, _) => depth != l.depth }
  | none => .ok l

/-- Remembers that a key may start at the cursor. -/
def saveKey (l : Lexer) : Except Fault Lexer := do
  if !l.keyAllowed then return l
  let required := !l.inFlow && l.indentation == l.cursor.column
  let l ← l.dropKey
  let place : KeyPlace :=
    ⟨l.tokens.length, required, l.cursor.index, l.cursor.line, l.cursor.column⟩
  return { l with keys := l.keys ++ [(l.depth, place)] }

/-- Sets whether a key may start. -/
def allowKey (allowed : Bool) (l : Lexer) : Lexer :=
  { l with keyAllowed := allowed }

/-- Closes the block collections that are indented further than a column. -/
def unindent (column : Int) (l : Lexer) : Lexer :=
  if l.inFlow then l
  else
    let around := l.indentation :: l.outer
    let closed := around.takeWhile (column < ·)
    let left := around.drop closed.length
    { l with
      tokens := List.replicate closed.length .blockEnd ++ l.tokens
      indentation := left.headD (-1)
      outer := left.tail }

/-- Opens a block collection at a column, with its token behind a number of others, unless one is
open there. -/
def indentAt (column : Nat) (count : Nat) (token : Token) (l : Lexer) : Lexer :=
  if l.indentation < column then
    { l.insert count token with indentation := column, outer := l.indentation :: l.outer }
  else l

/-- Moves to the next token, over blanks, comments and ends of lines. -/
def skipToToken : Nat → Lexer → Lexer
  | 0, l => l
  | fuel + 1, l =>
    let s := l.cursor.skipWhile (· == ' ')
    let s := if s.peek == '#' then s.skipLine else s
    if isBreak s.peek then
      skipToToken fuel
        { l with cursor := s.lineBreak.2, keyAllowed := l.keyAllowed || !l.inFlow }
    else { l with cursor := s }

/-- Reads the mark of a document. -/
def documentMark (token : Token) (l : Lexer) : Except Fault Lexer := do
  let l ← (l.unindent (-1)).dropKey
  return ((l.allowKey false).push token).advance 3

/-- Reads the start of a flow collection. -/
def openFlow (token : Token) (l : Lexer) : Except Fault Lexer := do
  let l ← l.saveKey
  return { ((l.allowKey true).push token).advance 1 with depth := l.depth + 1 }

/-- Reads the end of a flow collection. -/
def closeFlow (token : Token) (l : Lexer) : Except Fault Lexer := do
  let l ← l.dropKey
  return { ((l.allowKey false).push token).advance 1 with depth := l.depth - 1 }

/-- Reads the comma of a flow collection. -/
def flowEntry (l : Lexer) : Except Fault Lexer := do
  let l ← (l.allowKey true).dropKey
  return (l.push .flowEntry).advance 1

/-- Reads the dash of an entry. -/
def blockEntry (l : Lexer) : Except Fault Lexer := do
  if !l.inFlow && !l.keyAllowed then throw .malformed
  let l := if l.inFlow then l
    else l.indentAt l.cursor.column l.tokens.length .blockSequenceStart
  let l ← (l.allowKey true).dropKey
  return (l.push .blockEntry).advance 1

/-- Reads the question mark of a key. -/
def explicitKey (l : Lexer) : Except Fault Lexer := do
  if !l.inFlow && !l.keyAllowed then throw .malformed
  let l := if l.inFlow then l
    else l.indentAt l.cursor.column l.tokens.length .blockMappingStart
  let l ← (l.allowKey !l.inFlow).dropKey
  return (l.push .key).advance 1

/-- Reads the colon of a value. What may have been a key before it is one. -/
def mappingValue (l : Lexer) : Except Fault Lexer := do
  match l.keys.lookup l.depth with
  | some place =>
    let l := { l with keys := l.keys.filter fun (depth, _) => depth != l.depth }
    let l := l.insert place.token .key
    let l := if l.inFlow then l else l.indentAt place.column place.token .blockMappingStart
    return ((l.allowKey false).push .value).advance 1
  | none =>
    if !l.inFlow && !l.keyAllowed then throw .malformed
    let l := if l.inFlow then l
      else l.indentAt l.cursor.column l.tokens.length .blockMappingStart
    let l ← (l.allowKey !l.inFlow).dropKey
    return (l.push .value).advance 1

/-- Adds a token that was read from the cursor on, and that a key may start with. -/
def keyToken {α : Type} (read : Cursor → Except Fault (α × Cursor)) (token : α → Token)
    (l : Lexer) : Except Fault Lexer := do
  let l ← l.saveKey
  let (content, s) ← read l.cursor
  return { (l.allowKey false).push (token content) with cursor := s }

/-- Reads a block scalar. -/
def block (l : Lexer) : Except Fault Lexer := do
  let l ← (l.allowKey true).dropKey
  let (text, s) ← blockScalar l.indentation l.cursor
  return { l.push (.scalar false text) with cursor := s }

/-- Reads a plain scalar; after an end of line a key may start again. -/
def plain (l : Lexer) : Except Fault Lexer := do
  let l ← l.saveKey
  let (text, ended, s) := plainScalar l.inFlow l.indentation l.cursor
  return { (l.allowKey ended).push (.scalar true text) with cursor := s }

/-- Reads the end of the text. -/
def streamEnd (l : Lexer) : Except Fault Lexer := do
  let l ← (l.unindent (-1)).dropKey
  return { (l.allowKey false).push .streamEnd with keys := [] }

/-- Reads a directive. -/
def directive (l : Lexer) : Except Fault Lexer := do
  let l ← (l.unindent (-1)).dropKey
  let (content, s) ← directiveLine l.cursor
  return { (l.allowKey false).push (.directive content) with cursor := s }

/-- The characters that no plain scalar starts with unless more follows. -/
def indicators : List Char :=
  "-?:,[]\x7b\x7d#&*!|>'\"%@".toList ++ ['\x60']

/-- Whether a plain scalar starts at the cursor. -/
def startsPlain (l : Lexer) : Bool :=
  let c := l.cursor.peek
  (!isBlankOrEnd c && !indicators.contains c) ||
    (!isBlankOrEnd (l.cursor.peekAt 1) && (c == '-' || (!l.inFlow && (c == '?' || c == ':'))))

/-- Reads the token at the cursor. -/
def readToken (l : Lexer) : Except Fault Lexer :=
  let s := l.cursor
  let c := s.peek
  let alone := isBlankOrEnd (s.peekAt 1)
  if c == endMark then l.streamEnd
  else if c == '%' && s.column == 0 then l.directive
  else if s.column == 0 && s.hasSeparator '-' then l.documentMark .documentStart
  else if s.column == 0 && s.hasSeparator '.' then l.documentMark .documentEnd
  else if c == '[' then l.openFlow .flowSequenceStart
  else if c == '{' then l.openFlow .flowMappingStart
  else if c == ']' then l.closeFlow .flowSequenceEnd
  else if c == '}' then l.closeFlow .flowMappingEnd
  else if c == ',' then l.flowEntry
  else if c == '-' && alone then l.blockEntry
  else if c == '?' && (l.inFlow || alone) then l.explicitKey
  else if c == ':' && (l.inFlow || alone) then l.mappingValue
  else if c == '*' then l.keyToken (fun s => anchorName s.step) .alias
  else if c == '&' then l.keyToken (fun s => anchorName s.step) .anchor
  else if c == '!' then l.keyToken tagText .tag
  else if (c == '|' || c == '>') && !l.inFlow then l.block
  else if c == '\'' || c == '"' then l.keyToken quotedScalar (.scalar false)
  else if l.startsPlain then l.plain
  else .error .malformed

/-- Reads the next token, with the ends of collections before it. -/
def next (l : Lexer) : Except Fault Lexer := do
  let l ← (skipToToken (l.cursor.rest.length + 1) l).dropStale
  (l.unindent l.cursor.column).readToken

/-- The tokens that nothing which follows can change: those before the first place where a key may
have started. -/
def settled (l : Lexer) : List Token :=
  let count := l.keys.foldl (fun n (_, place) => min n place.token) l.tokens.length
  l.tokens.reverse.take count

/-- Reads tokens up to the end of the text, or up to a fault. -/
def run : Nat → Lexer → TokenList
  | 0, l => ⟨l.tokens.reverse, none⟩
  | fuel + 1, l =>
    if l.tokens.head? == some .streamEnd then ⟨l.tokens.reverse, none⟩
    else
      match l.next with
      | .ok l => run fuel l
      | .error fault => ⟨l.settled, some fault⟩

end Lexer

/-- The tokens of a text. Every token but the last takes a character, which bounds their number. -/
def TokenList.ofText (text : List Char) : TokenList :=
  let s := Cursor.start text
  let s := if s.peek == '\uFEFF' then s.step else s
  Lexer.run (text.length + 2) { cursor := s }

end Yaml

end Minifier
