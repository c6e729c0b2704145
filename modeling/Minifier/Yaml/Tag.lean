import Minifier.Yaml.Moment

/-!
# Tags of YAML

A tag says what a node is. A scalar without a tag takes one from its spelling. Main definitions:
`Tag.ofText`, `Tag.ofSpelling`.
-/

set_option autoImplicit false

namespace Minifier

namespace Yaml

/-- What a node is. -/
inductive Tag where
  | null
  | bool
  | int
  | float
  | binary
  | moment
  | text
  | merge
  | value
  | sequence
  | mapping
  | orderedMapping
  | pairs
  | set
  | unknown
  deriving DecidableEq, Repr

namespace Tag

/-- What the full text of every known tag starts with. -/
def common : String :=
  "tag:yaml.org,2002:"

/-- The names of the known tags. -/
def names : List (String × Tag) :=
  [("null", .null), ("bool", .bool), ("int", .int), ("float", .float), ("binary", .binary),
    ("timestamp", .moment), ("str", .text), ("merge", .merge), ("value", .value),
    ("seq", .sequence), ("map", .mapping), ("omap", .orderedMapping), ("pairs", .pairs),
    ("set", .set)]

/-- The tag of a full text. -/
def ofText (text : String) : Tag :=
  match names.find? fun (name, _) => common ++ name == text with
  | some (_, tag) => tag
  | none => .unknown

/-! ## Spellings of scalars -/

/-- The spellings of truth values, with the values. -/
def truthValues : List (String × Bool) :=
  [("yes", true), ("no", false), ("true", true), ("false", false), ("on", true), ("off", false)]

/-- The three ways to write a word: small, with a capital, in capitals. -/
def casings (word : String) : List String :=
  [word, String.ofList (match word.toList with
    | c :: rest => c.toUpper :: rest
    | [] => []), String.ofList (word.toList.map Char.toUpper)]

/-- Whether a text is a truth value. -/
def isBool (text : String) : Bool :=
  truthValues.any fun (word, _) => (casings word).contains text

/-- Whether a text stands for no value. -/
def isNull (text : String) : Bool :=
  text == "~" || text == "" || (casings "null").contains text

/-- Whether a character is a decimal digit. -/
def isDigit (c : Char) : Bool :=
  '0' ≤ c && c ≤ '9'

/-- Whether a character is a decimal digit or an underscore. -/
def isDigitOrGap (c : Char) : Bool :=
  isDigit c || c == '_'

/-- A text without its sign. -/
def unsigned : List Char → List Char
  | '-' :: rest => rest
  | '+' :: rest => rest
  | rest => rest

/-- Whether a text is not empty and every character of it passes a test. -/
def allOf (test : Char → Bool) (text : List Char) : Bool :=
  !text.isEmpty && text.all test

/-- What follows a colon and a number of at most two digits below sixty. -/
def afterSixtieth? : List Char → Option (List Char)
  | ':' :: a :: b :: rest =>
    if '0' ≤ a && a ≤ '5' && isDigit b then some rest
    else if isDigit a then some (b :: rest)
    else none
  | [':', a] => if isDigit a then some [] else none
  | _ => none

/-- What follows one or more such numbers; the fuel bounds how many. -/
def afterSixtieths? : Nat → List Char → Option (List Char)
  | 0, _ => none
  | fuel + 1, chars => do
    let rest ← afterSixtieth? chars
    if rest.head? == some ':' then afterSixtieths? fuel rest else some rest

/-- Whether a text, without its sign, starts with a digit and goes on with digits and underscores
up to what passes a test. -/
def digitsThen (test : List Char → Bool) (text : List Char) : Bool :=
  match text with
  | c :: rest => isDigit c && test (rest.dropWhile isDigitOrGap)
  | [] => false

/-- Whether a text is an integer. -/
def isInt (text : List Char) : Bool :=
  match unsigned text with
  | ['0'] => true
  | '0' :: 'b' :: rest => allOf (fun c => c == '0' || c == '1' || c == '_') rest
  | '0' :: 'x' :: rest =>
    allOf (fun c => isDigitOrGap c || ('a' ≤ c && c ≤ 'f') || ('A' ≤ c && c ≤ 'F')) rest
  | '0' :: rest => allOf (fun c => ('0' ≤ c && c ≤ '7') || c == '_') rest
  | other =>
    digitsThen (fun rest => rest.isEmpty || afterSixtieths? rest.length rest == some []) other

/-- Whether a text is empty or a power of ten with a sign. -/
def isPower : List Char → Bool
  | [] => true
  | mark :: sign :: rest =>
    (mark == 'e' || mark == 'E') && (sign == '-' || sign == '+') && allOf isDigit rest
  | _ => false

/-- Whether a text is a point with digits after it, where they are optional, and a power. -/
def isFraction : List Char → Bool
  | '.' :: rest => isPower (rest.dropWhile isDigitOrGap)
  | _ => false

/-- Whether a text is a point with digits after it. -/
def isPlainFraction : List Char → Bool
  | '.' :: rest => rest.all isDigitOrGap
  | _ => false

/-- Whether a text is a floating-point number. -/
def isFloat (text : List Char) : Bool :=
  let body := unsigned text
  let named (words : List String) (text : List Char) : Bool := words.contains (String.ofList text)
  digitsThen
      (fun rest =>
        isFraction rest || (afterSixtieths? rest.length rest).any isPlainFraction)
      body ||
    named [".inf", ".Inf", ".INF"] body || named [".nan", ".NaN", ".NAN"] text ||
    match text with
    | '.' :: c :: rest => isDigit c && isPower (rest.dropWhile isDigitOrGap)
    | _ => false

/-- A text without a line feed at its end, unless that is all of it. -/
def withoutLineFeed (text : List Char) : List Char :=
  if text.getLast? == some '\n' && 1 < text.length then text.dropLast else text

/-- The tag of a plain scalar without a tag. -/
def ofSpelling (text : List Char) : Tag :=
  let text := withoutLineFeed text
  let word := String.ofList text
  if isBool word then .bool
  else if isFloat text then .float
  else if isInt text then .int
  else if word == "<<" then .merge
  else if isNull word then .null
  else if Moment.isSpelling text then .moment
  else if word == "=" then .value
  else .text

end Tag

end Yaml

end Minifier
