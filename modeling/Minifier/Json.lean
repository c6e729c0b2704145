/-!
# JSON

Values of the JSON format. An object keeps its members in the order in which they are written; of
two members with one name the later value stands in the place of the earlier. Besides the format's
own numbers a reader accepts the words `NaN`, `Infinity` and `-Infinity`; it refuses lists and
objects that stand too deep inside each other, and integers with too many digits. Main definitions:
`Json.parse`, `Json.render`.
-/

set_option autoImplicit false

namespace Minifier

/-- A JSON value. A number written without fraction and exponent is an integer; any other one is
`coefficient · 10 ^ exponent`. A string that holds half of a surrogate pair is kept as its code
points. -/
inductive Json where
  | null
  | bool (value : Bool)
  | int (value : Int)
  | decimal (coefficient : Int) (exponent : Int)
  | notFinite (word : String)
  | str (value : String)
  | unpaired (codes : List Nat)
  | arr (items : List Json)
  | obj (members : List (String × Json))
  deriving Repr, Inhabited

/-- Why a text is not read as a value. -/
inductive JsonFault where
  | malformed
  | tooDeep
  | numeralTooLong
  deriving DecidableEq, Repr

namespace Json

/-! ## Looking into values -/

/-- The value of a member of an object. -/
def get? (key : String) : Json → Option Json
  | .obj members => members.lookup key
  | _ => none

/-- Puts a member into a list of members: in the place of the member of the same name, or last. -/
def putMember (key : String) (value : Json) : List (String × Json) → List (String × Json)
  | [] => [(key, value)]
  | (name, old) :: rest =>
    if name = key then (key, value) :: rest else (name, old) :: putMember key value rest

/-! ## Reading -/

/-- The number of lists and objects that may stand inside each other. -/
def depthLimit : Nat :=
  950

/-- The number of digits that an integer may have. -/
def digitLimit : Nat :=
  4300

/-- Drops the blanks that may stand between two parts of a value. -/
def skipBlanks : List Char → List Char :=
  List.dropWhile fun c => c == ' ' || c == '\t' || c == '\n' || c == '\r'

/-- The value of a hexadecimal digit. -/
def hexValue? (c : Char) : Option Nat :=
  if '0' ≤ c && c ≤ '9' then some (c.toNat - 48)
  else if 'a' ≤ c && c ≤ 'f' then some (c.toNat - 87)
  else if 'A' ≤ c && c ≤ 'F' then some (c.toNat - 55)
  else none

/-- Reads exactly four hexadecimal digits. -/
def fourHex? : List Char → Option (Nat × List Char)
  | a :: b :: c :: d :: rest => do
    let a ← hexValue? a
    let b ← hexValue? b
    let c ← hexValue? c
    let d ← hexValue? d
    some (((a * 16 + b) * 16 + c) * 16 + d, rest)
  | _ => none

/-- Whether a code point is the first half of a surrogate pair. -/
def isHighSurrogate (code : Nat) : Bool :=
  0xD800 ≤ code && code ≤ 0xDBFF

/-- Whether a code point is the second half of a surrogate pair. -/
def isLowSurrogate (code : Nat) : Bool :=
  0xDC00 ≤ code && code ≤ 0xDFFF

/-- Joins the surrogate pairs of a list of code points. -/
def joinPairs : List Nat → List Nat
  | [] => []
  | [code] => [code]
  | high :: low :: rest =>
    if isHighSurrogate high && isLowSurrogate low then
      (0x10000 + (high - 0xD800) * 0x400 + (low - 0xDC00)) :: joinPairs rest
    else high :: joinPairs (low :: rest)

/-- The value of a string with the given code points. -/
def ofCodes (codes : List Nat) : Json :=
  let joined := joinPairs codes
  if joined.any fun code => isHighSurrogate code || isLowSurrogate code then .unpaired joined
  else .str (String.ofList (joined.map Char.ofNat))

/-- The character that a one-letter escape stands for. -/
def escapeOf? : Char → Option Nat
  | '"' => some 0x22
  | '\\' => some 0x5C
  | '/' => some 0x2F
  | 'b' => some 0x08
  | 'f' => some 0x0C
  | 'n' => some 0x0A
  | 'r' => some 0x0D
  | 't' => some 0x09
  | _ => none

/-- Reads the rest of a string after its opening quote, with the code points so far, last first.
The fuel is the number of characters left. -/
def readString : Nat → List Nat → List Char → Option (List Nat × List Char)
  | 0, _, _ => none
  | _ + 1, _, [] => none
  | _ + 1, codes, '"' :: rest => some (codes.reverse, rest)
  | fuel + 1, codes, '\\' :: 'u' :: rest =>
    match fourHex? rest with
    | some (code, rest) => readString fuel (code :: codes) rest
    | none => none
  | fuel + 1, codes, '\\' :: c :: rest =>
    match escapeOf? c with
    | some code => readString fuel (code :: codes) rest
    | none => none
  | fuel + 1, codes, c :: rest =>
    if c.toNat < 0x20 || c == '\\' then none else readString fuel (c.toNat :: codes) rest

/-- The number that a list of decimal digits writes. -/
def natOfDigits (digits : List Char) : Nat :=
  digits.foldl (fun n c => n * 10 + (c.toNat - 48)) 0

/-- The fraction at the start of a text, as its digits, and the rest. -/
def readFraction : List Char → List Char × List Char
  | '.' :: rest =>
    let digits := rest.takeWhile Char.isDigit
    if digits.isEmpty then ([], '.' :: rest) else (digits, rest.dropWhile Char.isDigit)
  | rest => ([], rest)

/-- The exponent at the start of a text, and the rest. -/
def readExponent (text : List Char) : Option Int × List Char :=
  match text with
  | mark :: rest =>
    if mark == 'e' || mark == 'E' then
      let (negative, body) := match rest with
        | '-' :: body => (true, body)
        | '+' :: body => (false, body)
        | body => (false, body)
      let digits := body.takeWhile Char.isDigit
      if digits.isEmpty then (none, text)
      else
        let size := Int.ofNat (natOfDigits digits)
        (some (if negative then -size else size), body.dropWhile Char.isDigit)
    else (none, text)
  | [] => (none, [])

/-- A value at the start of a text, with the rest of the text. -/
abbrev Reading := Except JsonFault (Json × List Char)

/-- Reads a number without its sign. -/
def readNumber (negative : Bool) (text : List Char) : Reading :=
  let whole := match text with
    | '0' :: _ => ['0']
    | _ => text.takeWhile Char.isDigit
  if whole.isEmpty then .error .malformed
  else
    let (fraction, rest) := readFraction (text.drop whole.length)
    let (exponent, rest) := readExponent rest
    let sign (n : Nat) : Int := if negative then -Int.ofNat n else Int.ofNat n
    if fraction.isEmpty && exponent.isNone then
      if digitLimit < whole.length then .error .numeralTooLong
      else .ok (.int (sign (natOfDigits whole)), rest)
    else
      .ok (.decimal (sign (natOfDigits (whole ++ fraction)))
        (exponent.getD 0 - Int.ofNat fraction.length), rest)

/-- Reads a given word. -/
def readWord (word : String) (value : Json) (text : List Char) : Reading :=
  if word.toList.isPrefixOf text then .ok (value, text.drop word.length) else .error .malformed

mutual

/-- Reads one value at the start of a text, which has no blanks in front. The fuel bounds the
number of values and marks still to be read; `room` is how many lists and objects may still be
opened inside each other. -/
def readValue : Nat → Nat → List Char → Reading
  | 0, _, _ => .error .malformed
  | _ + 1, _, [] => .error .malformed
  | fuel + 1, room, c :: rest =>
    match c with
    | '"' =>
      match readString (rest.length + 1) [] rest with
      | some (codes, rest) => .ok (ofCodes codes, rest)
      | none => .error .malformed
    | '\x7b' =>
      match room, skipBlanks rest with
      | 0, _ => .error .tooDeep
      | _, '\x7d' :: rest => .ok (.obj [], rest)
      | room + 1, rest => readMembers fuel room [] rest
    | '[' =>
      match room, skipBlanks rest with
      | 0, _ => .error .tooDeep
      | _, ']' :: rest => .ok (.arr [], rest)
      | room + 1, rest => readItems fuel room [] rest
    | 'n' => readWord "null" .null (c :: rest)
    | 't' => readWord "true" (.bool true) (c :: rest)
    | 'f' => readWord "false" (.bool false) (c :: rest)
    | 'N' => readWord "NaN" (.notFinite "NaN") (c :: rest)
    | 'I' => readWord "Infinity" (.notFinite "Infinity") (c :: rest)
    | '-' =>
      match rest with
      | 'I' :: _ => readWord "-Infinity" (.notFinite "-Infinity") (c :: rest)
      | _ => readNumber true rest
    | _ => readNumber false (c :: rest)

/-- Reads the items of a list and its closing bracket; those already read come last first. -/
def readItems : Nat → Nat → List Json → List Char → Reading
  | 0, _, _, _ => .error .malformed
  | fuel + 1, room, items, text =>
    match readValue fuel room text with
    | .error fault => .error fault
    | .ok (item, rest) =>
      match skipBlanks rest with
      | ',' :: rest => readItems fuel room (item :: items) (skipBlanks rest)
      | ']' :: rest => .ok (.arr (item :: items).reverse, rest)
      | _ => .error .malformed

/-- Reads the members of an object and its closing brace. -/
def readMembers : Nat → Nat → List (String × Json) → List Char → Reading
  | 0, _, _, _ => .error .malformed
  | fuel + 1, room, members, text =>
    match text with
    | '"' :: rest =>
      match readString (rest.length + 1) [] rest with
      | none => .error .malformed
      | some (codes, rest) =>
        match skipBlanks rest with
        | ':' :: rest =>
          match readValue fuel room (skipBlanks rest) with
          | .error fault => .error fault
          | .ok (value, rest) =>
            let key := String.ofList ((joinPairs codes).map Char.ofNat)
            match skipBlanks rest with
            | ',' :: rest => readMembers fuel room (putMember key value members) (skipBlanks rest)
            | '\x7d' :: rest => .ok (.obj (putMember key value members), rest)
            | _ => .error .malformed
        | _ => .error .malformed
    | _ => .error .malformed

end

/-- Reads a text that is one JSON value, with blanks around it. A byte order mark may come first. -/
def parse (text : String) : Except JsonFault Json :=
  let chars := match text.toList with
    | '\uFEFF' :: rest => rest
    | chars => chars
  match readValue (2 * chars.length + 2) depthLimit (skipBlanks chars) with
  | .ok (value, rest) => if (skipBlanks rest).isEmpty then .ok value else .error .malformed
  | .error fault => .error fault

/-! ## Writing -/

/-- The last four hexadecimal digits of a number. -/
def fourHexDigits (n : Nat) : List Char :=
  [n / 4096 % 16, n / 256 % 16, n / 16 % 16, n % 16].map Nat.digitChar

/-- One code point inside a string: every one outside ASCII is escaped. -/
def renderCode (code : Nat) : List Char :=
  if code == 0x22 then ['\\', '"']
  else if code == 0x5C then ['\\', '\\']
  else if code == 0x0A then ['\\', 'n']
  else if code == 0x0D then ['\\', 'r']
  else if code == 0x09 then ['\\', 't']
  else if 0x20 ≤ code && code < 0x7F then [Char.ofNat code]
  else if code < 0x10000 then '\\' :: 'u' :: fourHexDigits code
  else
    let high := 0xD800 + (code - 0x10000) / 0x400
    let low := 0xDC00 + (code - 0x10000) % 0x400
    ('\\' :: 'u' :: fourHexDigits high) ++ ('\\' :: 'u' :: fourHexDigits low)

/-- A string with the given code points, between its quotes. -/
def renderCodes (codes : List Nat) : String :=
  String.ofList ('"' :: (codes.flatMap renderCode ++ ['"']))

/-- A string between its quotes. -/
def renderString (s : String) : String :=
  renderCodes (s.toList.map Char.toNat)

mutual

/-- Writes a value without blanks. -/
def render : Json → String
  | .null => "null"
  | .bool true => "true"
  | .bool false => "false"
  | .int value => toString value
  | .decimal coefficient exponent => toString coefficient ++ "e" ++ toString exponent
  | .notFinite word => word
  | .str value => renderString value
  | .unpaired codes => renderCodes codes
  | .arr items => "[" ++ ",".intercalate (renderItems items) ++ "]"
  | .obj members => "\x7b" ++ ",".intercalate (renderMembers members) ++ "\x7d"

/-- Writes each item of a list. -/
def renderItems : List Json → List String
  | [] => []
  | item :: rest => render item :: renderItems rest

/-- Writes each member of an object. -/
def renderMembers : List (String × Json) → List String
  | [] => []
  | (key, value) :: rest => (renderString key ++ ":" ++ render value) :: renderMembers rest

end

end Json

end Minifier
