import Minifier.Decimal.Integer
import Minifier.Pattern.Form
import Minifier.Text.Identifier

/-!
# Reading patterns

The grammar of patterns: alternatives between bars, each a list of items with repetitions; sets in
brackets; groups in parentheses with their extensions; escapes after a backslash. The reader keeps
what later parts depend on, the groups opened and closed so far and the modes switched on for the
whole pattern. Main definition: `Pattern.read`.
-/

set_option autoImplicit false

namespace Minifier

namespace Pattern

/-- The units that a pattern is read by: a character, or a backslash with the character after it. A
backslash at the end is a unit that must never be reached. -/
inductive Token where
  | plain (c : Char)
  | escaped (c : Char)
  | dangling
  deriving DecidableEq, Repr

/-- The tokens of a pattern. -/
def tokens : List Char → List Token
  | [] => []
  | ['\\'] => [.dangling]
  | '\\' :: c :: rest => .escaped c :: tokens rest
  | c :: rest => .plain c :: tokens rest

/-- What the reader knows: the tokens left, the number of groups opened so far, their names, the
widths of those that are closed, the groups open where the outermost look-behind starts, the groups
that conditions ask for, and the modes of the whole pattern. -/
structure Reading where
  left : List Token
  opened : Nat := 0
  names : List (String × Nat) := []
  closed : List (Nat × Nat × Nat) := []
  behindFrom : Option Nat := none
  asked : List Nat := []
  modes : Modes := {}

/-- A step of the reader. -/
abbrev Reader := StateT Reading (Except Fault)

/-- Gives up on a malformed pattern. -/
def malformed {α : Type} : Reader α :=
  throw .malformed

/-- Goes on with the given tokens; one that cannot be reached makes the pattern malformed. -/
def moveTo (left : List Token) : Reader Unit :=
  match left with
  | .dangling :: _ => malformed
  | left => modify fun reading => { reading with left }

/-- The next token, which stays. -/
def peek : Reader (Option Token) := do
  return (← get).left.head?

/-- Passes the next token. -/
def advance : Reader Unit := do
  moveTo (← get).left.tail

/-- Takes the next token. -/
def take : Reader (Option Token) := do
  let next ← peek
  advance
  return next

/-- Takes the next token if it is the given character. -/
def takeIf (c : Char) : Reader Bool := do
  if (← peek) = some (.plain c) then
    advance
    return true
  return false

/-- Takes plain characters that satisfy a test, at most a given number. -/
def takeWhile (test : Char → Bool) : Nat → Reader (List Char)
  | 0 => return []
  | limit + 1 => do
    match ← peek with
    | some (.plain c) =>
      if test c then
        advance
        return c :: (← takeWhile test limit)
      return []
    | _ => return []

/-- The characters of a token. -/
def Token.chars : Token → List Char
  | .plain c => [c]
  | .escaped c => ['\\', c]
  | .dangling => ['\\']

/-- Takes a name up to a closing character, which is passed. The name must not be empty. -/
def takeName (close : Char) : Nat → Reader (List Char)
  | 0 => malformed
  | limit + 1 => do
    match ← take with
    | none => malformed
    | some (.plain c) =>
      if c = close then return [] else return c :: (← takeName close limit)
    | some token => return token.chars ++ (← takeName close limit)

/-- Takes a name as `takeName` does, and refuses the empty one. -/
def takeNameUntil (close : Char) : Reader (List Char) := do
  let name ← takeName close ((← get).left.length + 1)
  if name.isEmpty then malformed else return name

/-! ## Characters and classes -/

/-- Whether a character is an octal digit. -/
def isOctal (c : Char) : Bool :=
  '0' ≤ c && c ≤ '7'

/-- Whether a character is an ASCII digit. -/
def isAsciiDigit (c : Char) : Bool :=
  '0' ≤ c && c ≤ '9'

/-- Whether a character is an ASCII letter. -/
def isAsciiLetter (c : Char) : Bool :=
  ('a' ≤ c && c ≤ 'z') || ('A' ≤ c && c ≤ 'Z')

/-- Whether a character is a hexadecimal digit. -/
def isHexDigit (c : Char) : Bool :=
  isAsciiDigit c || ('a' ≤ c && c ≤ 'f') || ('A' ≤ c && c ≤ 'F')

/-- The number that digits of a base write. -/
def numberOf (base : Nat) (digits : List Char) : Nat :=
  Integer.ofDigits base (digits.map fun c => (Integer.digitValue? base c).getD 0)

/-- The code point of an escape that names one character. -/
def simpleEscape? : Char → Option Nat
  | 'a' => some 7
  | 'b' => some 8
  | 'f' => some 12
  | 'n' => some 10
  | 'r' => some 13
  | 't' => some 9
  | 'v' => some 11
  | '\\' => some 92
  | _ => none

/-- The class of an escape that names a class, and whether its complement is meant. -/
def categoryEscape? : Char → Option (Category × Bool)
  | 'd' => some (.digit, false)
  | 'D' => some (.digit, true)
  | 's' => some (.blank, false)
  | 'S' => some (.blank, true)
  | 'w' => some (.word, false)
  | 'W' => some (.word, true)
  | _ => none

/-- The place of an escape that names a place. -/
def placeEscape? : Char → Option Place
  | 'A' => some .textStart
  | 'b' => some .wordEdge
  | 'B' => some .noWordEdge
  | 'Z' => some .textEnd
  | _ => none

/-- Reads a number of exactly `count` hexadecimal digits. -/
def readHex (count : Nat) : Reader Nat := do
  let digits ← takeWhile isHexDigit count
  if digits.length = count then return numberOf 16 digits else malformed

/-- Reads the rest of an escape that gives a code point in hexadecimal digits. -/
def readCodeEscape (c : Char) : Reader Nat := do
  match c with
  | 'x' => readHex 2
  | 'u' => readHex 4
  | _ =>
    let code ← readHex 8
    if code < 0x110000 then return code else malformed

/-- Whether an escape gives a code point in hexadecimal digits. -/
def isCodeEscape (c : Char) : Bool :=
  c = 'x' || c = 'u' || c = 'U'

/-- An escape inside a set. -/
def readSetEscape (c : Char) : Reader SetItem := do
  match simpleEscape? c, categoryEscape? c with
  | some code, _ => return .range code code
  | none, some (category, negated) => return .category category negated
  | none, none =>
    if isCodeEscape c then
      let code ← readCodeEscape c
      return .range code code
    else if isOctal c then
      let code := numberOf 8 (c :: (← takeWhile isOctal 2))
      if code ≤ 0o377 then return .range code code else malformed
    else if isAsciiDigit c || isAsciiLetter c then malformed
    else return .range c.toNat c.toNat

/-- One member of a set, before any hyphen: a code point, or a class. -/
def readSetMember : Token → Reader SetItem
  | .plain c => return .range c.toNat c.toNat
  | .escaped c => readSetEscape c
  | .dangling => malformed

/-- The single code point of a member of a set. -/
def SetItem.single? : SetItem → Option Nat
  | .range first last => if first = last then some first else none
  | .category _ _ => none

/-- Reads the members of a set up to its closing bracket; `items` are those read so far, last
first. A bracket in the first place is a member. -/
def readSetItems : Nat → List SetItem → Reader (List SetItem)
  | 0, _ => malformed
  | fuel + 1, items => do
    match ← take with
    | none => malformed
    | some token =>
      if token = .plain ']' && !items.isEmpty then return items.reverse
      let member ← readSetMember token
      if ← takeIf '-' then
        match ← take with
        | none => malformed
        | some (.plain ']') => return (.range 45 45 :: member :: items).reverse
        | some token =>
          let other ← readSetMember token
          match member.single?, other.single? with
          | some first, some last =>
            if last < first then malformed
            else readSetItems fuel (.range first last :: items)
          | _, _ => malformed
      else readSetItems fuel (member :: items)

/-- Reads a set after its opening bracket. -/
def readSet : Reader Form := do
  let negated ← takeIf '^'
  let items ← readSetItems ((← get).left.length + 1) []
  return .set negated items

/-! ## Groups and references -/

/-- Checks a reference to a group: it must be closed, and inside a look-behind it must have been
closed before the look-behind. -/
def checkGroup (index : Nat) : Reader Unit := do
  let reading ← get
  if (reading.closed.lookup index).isNone then malformed
  else
    match reading.behindFrom with
    | some first => if first ≤ index then malformed else return ()
    | none => return ()

/-- Checks a condition on a group, which only a look-behind restricts. -/
def checkCondition (index : Nat) : Reader Unit := do
  if (← get).behindFrom.isSome then checkGroup index

/-- Reads the rest of an escape outside a set. -/
def readEscape (c : Char) : Reader Form := do
  match placeEscape? c, categoryEscape? c, simpleEscape? c with
  | some place, _, _ => return .place place
  | none, some (category, negated), _ => return .set false [.category category negated]
  | none, none, some code => return .literal code
  | none, none, none =>
    if isCodeEscape c then return .literal (← readCodeEscape c)
    else if c = '0' then return .literal (numberOf 8 (c :: (← takeWhile isOctal 2)))
    else if isAsciiDigit c then
      let second ← takeWhile isAsciiDigit 1
      let third ←
        if isOctal c && !second.isEmpty && second.all isOctal then takeWhile isOctal 1
        else pure []
      if !third.isEmpty then
        let code := numberOf 8 (c :: second ++ third)
        if code ≤ 0o377 then return .literal code else malformed
      else
        let index := numberOf 10 (c :: second)
        checkGroup index
        return .backref index
    else if isAsciiLetter c then malformed
    else return .literal c.toNat

/-- The mode of a flag letter, as a record with only that mode on. -/
def modeOf? : Char → Option Modes
  | 'i' => some { ignoreCase := true }
  | 'm' => some { multiline := true }
  | 's' => some { dotAll := true }
  | 'x' => some { verbose := true }
  | 'a' => some { ascii := true }
  | 't' => some { template := true }
  | 'u' => some { unicode := true }
  | _ => none

/-- Reads flag letters that are switched on, and the character that ends them. -/
def readModesOn : Nat → Modes → Char → Reader (Modes × Char)
  | 0, _, _ => malformed
  | fuel + 1, modes, c => do
    match modeOf? c with
    | none => malformed
    | some mode =>
      let modes := modes.union mode
      if modes.ascii && modes.unicode then malformed
      match ← take with
      | some (.plain next) =>
        if next = ')' || next = '-' || next = ':' then return (modes, next)
        else readModesOn fuel modes next
      | _ => malformed

/-- Reads flag letters that are switched off, up to the colon. -/
def readModesOff : Nat → Modes → Reader Modes
  | 0, _ => malformed
  | fuel + 1, modes => do
    match ← take with
    | some (.plain c) =>
      match modeOf? c with
      | none => malformed
      | some mode =>
        if mode.ascii || mode.unicode then malformed
        let modes := modes.union mode
        if ← takeIf ':' then return modes else readModesOff fuel modes
    | _ => malformed

/-- What a list of flags asks for: modes of the whole pattern, or of one group. -/
inductive Flags where
  | whole (modes : Modes)
  | group (on off : Modes)

/-- Reads flags, of which the first character is given. -/
def readFlags (c : Char) : Reader Flags := do
  let fuel := (← get).left.length + 1
  let (on, stop) ← if c = '-' then pure ({}, '-') else readModesOn fuel {} c
  if stop = ')' then return .whole on
  if on.template then malformed
  let off ← if stop = '-' then readModesOff fuel {} else pure {}
  if off.template || on.meets off then malformed
  return .group on off

/-- Opens a group, under a name that no other group has. -/
def openGroup (name : Option String) : Reader Nat := do
  let reading ← get
  let index := reading.opened + 1
  match name with
  | none => set { reading with opened := index }
  | some name =>
    if (reading.names.lookup name).isSome then malformed
    set { reading with opened := index, names := (name, index) :: reading.names }
  return index

/-- Closes a group and notes its width. -/
def closeGroup (index : Nat) (body : Form) : Reader Unit :=
  modify fun reading =>
    { reading with closed := (index, body.width reading.closed) :: reading.closed }

/-- The group of a given name. -/
def groupNamed (name : List Char) : Reader Nat := do
  match (← get).names.lookup (String.ofList name) with
  | some index => return index
  | none => malformed

/-- Takes the name of a group up to a closing character. -/
def takeIdentifier (close : Char) : Reader (List Char) := do
  let name ← takeNameUntil close
  if isIdentifier name then return name else malformed

/-- Reads the group that a condition asks for, by name or by number. -/
def readCondition : Reader Nat := do
  let name ← takeNameUntil ')'
  if isIdentifier name then
    let index ← groupNamed name
    checkCondition index
    return index
  match Integer.read 10 name with
  | .ok (.ofNat index) =>
    if index = 0 then malformed
    modify fun reading => { reading with asked := index :: reading.asked }
    checkCondition index
    return index
  | _ => malformed

/-- Skips a comment up to its closing parenthesis. -/
def skipComment : Nat → Reader Unit
  | 0 => malformed
  | fuel + 1 => do
    match ← take with
    | none => malformed
    | some token => if token = .plain ')' then return () else skipComment fuel

/-- Skips a line comment of the verbose mode. -/
def skipLine : Nat → Reader Unit
  | 0 => return ()
  | fuel + 1 => do
    match ← take with
    | none => return ()
    | some token => if token = .plain '\n' then return () else skipLine fuel

/-! ## Repetitions -/

/-- Reads a bound in braces after the opening one: nothing when the braces are plain text, and then
nothing is taken. -/
def readBraces : Reader (Option (Nat × Option Nat)) := do
  let start := (← get).left
  if start.head? = some (.plain '\x7d') then return none
  let low ← takeWhile isAsciiDigit start.length
  let high ← do
    if ← takeIf ',' then takeWhile isAsciiDigit start.length else pure low
  if ← takeIf '\x7d' then
    let number (digits : List Char) : Reader Nat := do
      if Integer.digitLimit < digits.length then throw (.numeralTooLong digits.length)
      let n := numberOf 10 digits
      if repeatLimit ≤ n then throw .repeatTooLarge
      return n
    let least ← if low.isEmpty then pure 0 else number low
    if high.isEmpty then return some (least, none)
    let most ← number high
    if most < least then malformed
    return some (least, some most)
  else
    moveTo start
    return none

/-- The item that a repetition repeats: the last one so far, which must neither be missing, nor a
place, nor a repetition. A plain group stands for its body. -/
def repeatedItem : List Form → Reader Form
  | [] => malformed
  | .place _ :: _ => malformed
  | .repeated _ _ _ _ :: _ => malformed
  | .group none on off body :: _ =>
    if on = {} && off = {} then return body else return .group none on off body
  | item :: _ => return item

/-- Takes the mark behind a repetition that says which of its ways come first. -/
def takeGreed : Reader Greed := do
  if ← takeIf '?' then return .lazy
  if ← takeIf '+' then return .possessive
  return .greedy

/-- Repeats the last item so far. -/
def addRepetition (items : List Form) (least : Nat) (most : Option Nat) : Reader (List Form) := do
  let item ← repeatedItem items
  let greed ← takeGreed
  return .repeated least most greed item :: items.tail

/-- The blanks that the verbose mode skips. -/
def isPatternBlank (c : Char) : Bool :=
  c = ' ' || (9 ≤ c.toNat && c.toNat ≤ 13)

/-! ## The grammar -/

/-- What is read next: alternatives, the items of one of them, or a group. -/
inductive Goal where
  | alternatives (top verbose : Bool)
  | items (first verbose : Bool) (before : List Form)
  | group (index : Option Nat) (on off : Modes) (verbose : Bool)

/-- Passes a closing parenthesis. -/
def closeParenthesis : Reader Unit := do
  if ← takeIf ')' then return () else malformed

/-- Reads what a goal asks for. The fuel bounds the steps: each takes a token or enters a part. -/
def readGoal : Nat → Goal → Reader Form
  | 0, _ => malformed
  | fuel + 1, .alternatives top verbose => do
    let first ← readGoal fuel (.items top verbose [])
    if ← takeIf '|' then
      let reading ← get
      let verbose := if top then reading.modes.verbose else verbose
      let rest ← readRest fuel top verbose
      return .alt first rest
    return first
  | fuel + 1, .group index on off verbose => do
    let verbose := (verbose || on.verbose) && !off.verbose
    let body ← readGoal fuel (.alternatives false verbose)
    closeParenthesis
    match index with
    | some index => closeGroup index body
    | none => pure ()
    return .group index on off body
  | fuel + 1, .items first verbose items => do
    let more (item : Form) : Reader Form := readGoal fuel (.items first verbose (item :: items))
    match ← peek with
    | none => return Form.all items.reverse
    | some .dangling => malformed
    | some (.escaped c) =>
      advance
      more (← readEscape c)
    | some (.plain c) =>
      if c = '|' || c = ')' then return Form.all items.reverse
      advance
      if verbose && isPatternBlank c then readGoal fuel (.items first verbose items)
      else if verbose && c = '#' then
        skipLine ((← get).left.length + 1)
        readGoal fuel (.items first verbose items)
      else
        match c with
        | '[' => more (← readSet)
        | '.' => more .anyGlyph
        | '^' => more (.place .lineStart)
        | '$' => more (.place .lineEnd)
        | '?' => readGoal fuel (.items first verbose (← addRepetition items 0 (some 1)))
        | '*' => readGoal fuel (.items first verbose (← addRepetition items 0 none))
        | '+' => readGoal fuel (.items first verbose (← addRepetition items 1 none))
        | '\x7b' =>
          match ← readBraces with
          | none => more (.literal 0x7B)
          | some (least, most) =>
            readGoal fuel (.items first verbose (← addRepetition items least most))
        | '(' =>
          if !(← takeIf '?') then
            more (← readGoal fuel (.group (some (← openGroup none)) {} {} verbose))
          else
            match ← take with
            | some (.plain ':') => more (← readGoal fuel (.group none {} {} verbose))
            | some (.plain '>') =>
              let body ← readGoal fuel (.alternatives false verbose)
              closeParenthesis
              more (.atomic body)
            | some (.plain '#') =>
              skipComment ((← get).left.length + 1)
              readGoal fuel (.items first verbose items)
            | some (.plain 'P') =>
              if ← takeIf '<' then
                let name ← takeIdentifier '>'
                let index ← openGroup (some (String.ofList name))
                more (← readGoal fuel (.group (some index) {} {} verbose))
              else if ← takeIf '=' then
                let index ← groupNamed (← takeIdentifier ')')
                checkGroup index
                more (.backref index)
              else malformed
            | some (.plain '(') =>
              let index ← readCondition
              let yes ← readGoal fuel (.items false verbose [])
              let no ←
                if ← takeIf '|' then
                  let no ← readGoal fuel (.items false verbose [])
                  if (← peek) = some (.plain '|') then malformed
                  pure no
                else pure .empty
              closeParenthesis
              more (.conditional index yes no)
            | some (.plain '<') =>
              let negated ← match ← take with
                | some (.plain '=') => pure false
                | some (.plain '!') => pure true
                | _ => malformed
              let outer := (← get).behindFrom
              modify fun reading =>
                { reading with behindFrom := some (outer.getD (reading.opened + 1)) }
              let body ← readGoal fuel (.alternatives false verbose)
              modify fun reading => { reading with behindFrom := outer }
              closeParenthesis
              more (.look false negated body)
            | some (.plain c) =>
              if c = '=' || c = '!' then
                let body ← readGoal fuel (.alternatives false verbose)
                closeParenthesis
                more (.look true (c = '!') body)
              else if c = '-' || (modeOf? c).isSome then
                match ← readFlags c with
                | .whole modes =>
                  if !first || !items.isEmpty then malformed
                  modify fun reading => { reading with modes := reading.modes.union modes }
                  readGoal fuel (.items first (← get).modes.verbose items)
                | .group on off => more (← readGoal fuel (.group none on off verbose))
              else malformed
            | _ => malformed
        | c => more (.literal c.toNat)
where
  /-- Reads the alternatives after the first bar. -/
  readRest : Nat → Bool → Bool → Reader Form
    | 0, _, _ => malformed
    | fuel + 1, top, verbose => do
      let next ← readGoal fuel (.items false verbose [])
      if ← takeIf '|' then
        let reading ← get
        let verbose := if top then reading.modes.verbose else verbose
        return .alt next (← readRest fuel top verbose)
      return next

/-- Reads a whole pattern: its form and the modes of the whole. -/
def read (source : String) : Except Fault (Form × Modes) := do
  let all := tokens source.toList
  let start : Reader Form := do
    moveTo all
    readGoal (4 * all.length + 8) (.alternatives true false)
  let (form, reading) ← start.run { left := [] }
  if reading.modes.ascii && reading.modes.unicode then throw .mixedAlphabets
  if !reading.left.isEmpty then throw .malformed
  if reading.asked.any fun index => reading.opened < index then throw .malformed
  return (form, reading.modes)

end Pattern

end Minifier
