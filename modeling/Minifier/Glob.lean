/-!
# Globs

A glob is matched against a whole text: `*` stands for any run of characters, `?` for any one, and
`[…]` for one character of a set, or of the complement if `!` comes first. A set that is not closed
is a plain bracket. A hyphen between two characters of a set makes a range; a range whose ends are
in the wrong order holds nothing. Main definitions: `Glob.parse`, `Glob.accepts`.
-/

set_option autoImplicit false

namespace Minifier

namespace Glob

/-- One part of a glob. A set lists ranges; a single character is a range of its own. -/
inductive Piece where
  | anyRun
  | anyOne
  | one (c : Char)
  | set (negated : Bool) (ranges : List (Char × Char))
  deriving DecidableEq, Repr

/-- The content of a set and the text after it, when the text after the opening bracket closes one.
A bracket in the first place, or after the first exclamation mark, belongs to the content. -/
def setContent? (text : List Char) : Option (List Char × List Char) :=
  let (mark, rest) := match text with
    | '!' :: rest => (['!'], rest)
    | rest => ([], rest)
  let (first, rest) := match rest with
    | ']' :: rest => ([']'], rest)
    | rest => ([], rest)
  let inside := rest.takeWhile (· != ']')
  match rest.drop inside.length with
  | _ :: after => some (mark ++ first ++ inside, after)
  | [] => none

/-- Splits the content of a set at the hyphens that make ranges. `skip` characters are passed
without a look; after a hyphen two are, since they cannot be another range's hyphen. -/
def chunksFrom : Nat → List Char → List Char → List (List Char)
  | _, chunk, [] => [chunk.reverse]
  | skip + 1, chunk, c :: rest => chunksFrom skip (c :: chunk) rest
  | 0, chunk, c :: rest =>
    if c = '-' then chunk.reverse :: chunksFrom 2 [] rest else chunksFrom 0 (c :: chunk) rest

/-- Gives a hyphen at the very end back to the chunk before it. -/
def closeChunks : List (List Char) → List (List Char)
  | [] => []
  | [chunk] => [chunk]
  | [chunk, []] => [chunk ++ ['-']]
  | chunk :: next :: rest => chunk :: closeChunks (next :: rest)

/-- Removes the ranges whose ends are in the wrong order, together with those ends. -/
def dropEmptyRanges : List (List Char) → List (List Char)
  | [] => []
  | chunk :: rest =>
    match dropEmptyRanges rest with
    | [] => [chunk]
    | next :: others =>
      match chunk.getLast?, next with
      | some low, high :: after =>
        if high < low then (chunk.dropLast ++ after) :: others else chunk :: next :: others
      | _, _ => chunk :: next :: others

/-- The ranges of chunks: the last character of one and the first of the next bound a range, and
all others stand alone. -/
def rangesOf : List (List Char) → List (Char × Char)
  | [] => []
  | [chunk] => chunk.map fun c => (c, c)
  | chunk :: next :: rest =>
    match chunk.getLast?, next with
    | some low, high :: after =>
      (chunk.dropLast.map fun c => (c, c)) ++ (low, high) :: rangesOf (after :: rest)
    | _, _ => (chunk.map fun c => (c, c)) ++ rangesOf (next :: rest)
termination_by chunks => chunks.length

/-- The piece that a set's content makes. An exclamation mark that is left alone stands for any
character. -/
def setPiece (content : List Char) : Piece :=
  let chunks :=
    if content.contains '-' then
      let skip := if content.head? = some '!' then 2 else 1
      dropEmptyRanges (closeChunks (chunksFrom skip [] content))
    else [content]
  match chunks with
  | ['!'] :: [] => .anyOne
  | ('!' :: first) :: rest => .set true (rangesOf (first :: rest))
  | chunks => .set false (rangesOf chunks)

/-- Reads a glob; the fuel is its length. -/
def parseFrom : Nat → List Char → List Piece
  | 0, _ => []
  | _ + 1, [] => []
  | fuel + 1, c :: rest =>
    match c with
    | '*' => .anyRun :: parseFrom fuel (rest.dropWhile (· == '*'))
    | '?' => .anyOne :: parseFrom fuel rest
    | '[' =>
      match setContent? rest with
      | some (content, after) => setPiece content :: parseFrom fuel after
      | none => .one '[' :: parseFrom fuel rest
    | c => .one c :: parseFrom fuel rest

/-- Reads a glob. -/
def parse (glob : String) : List Piece :=
  parseFrom glob.length glob.toList

/-- Whether a piece other than a run takes a character. -/
def Piece.takes : Piece → Char → Bool
  | .anyRun, _ => true
  | .anyOne, _ => true
  | .one c, d => c == d
  | .set negated ranges, d => (ranges.any fun r => r.1 ≤ d && d ≤ r.2) != negated

/-- The ends of a list, the list itself first. -/
def endings : List Char → List (List Char)
  | [] => [[]]
  | c :: rest => (c :: rest) :: endings rest

/-- Whether pieces match a whole text. -/
def acceptsPieces : List Piece → List Char → Bool
  | [], text => text.isEmpty
  | .anyRun :: pieces, text => (endings text).any (acceptsPieces pieces)
  | piece :: pieces, text =>
    match text with
    | [] => false
    | c :: rest => piece.takes c && acceptsPieces pieces rest

/-- Whether a glob matches a whole text. -/
def accepts (glob text : String) : Bool :=
  acceptsPieces (parse glob) text.toList

end Glob

end Minifier
