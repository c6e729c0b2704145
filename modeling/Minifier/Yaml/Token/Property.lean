import Minifier.Text.Utf8
import Minifier.Yaml.Token.Basic
import Minifier.Yaml.Token.Scalar

/-!
# Tags, anchors and directives of YAML

What may stand before a value, or before a document: the name that it is referred to by, the tag
that says what it is, and the lines that explain the handles of tags.
-/

set_option autoImplicit false

namespace Minifier

namespace Yaml

/-- Whether a character may stand in a name. -/
def isNameChar (c : Char) : Bool :=
  ('0' ≤ c && c ≤ '9') || ('A' ≤ c && c ≤ 'Z') || ('a' ≤ c && c ≤ 'z') || c == '-' || c == '_'

/-- Whether a character may stand in a tag. -/
def isUriChar (c : Char) : Bool :=
  isNameChar c || ";/?:@&=+$,.!~*'()[]%".toList.contains c

/-- Whether a character may follow an anchor or an alias. -/
def endsAnchor (c : Char) : Bool :=
  isBlankOrEnd c || "?:,]\x7d%@".toList.contains c || c == '\x60'

/-- Reads the name of an anchor or an alias, behind its mark. -/
def anchorName (s : Cursor) : Except Fault (String × Cursor) :=
  let (name, s) := s.takeWhile isNameChar
  if name.isEmpty || !endsAnchor s.peek then .error .malformed else .ok (String.ofList name, s)

/-- Reads bytes that are written as hexadecimal digits after percent signs. -/
def uriBytes : Nat → Cursor → Except Fault (Bytes × Cursor)
  | 0, s => .ok ([], s)
  | fuel + 1, s =>
    if s.peek == '%' then
      let s := s.step
      match hexDigit? s.peek, hexDigit? (s.peekAt 1) with
      | some high, some low => do
        let (others, s) ← uriBytes fuel (s.forward 2)
        return (UInt8.ofNat (high * 16 + low) :: others, s)
      | _, _ => .error .malformed
    else .ok ([], s)

/-- Reads the characters of a tag. -/
def uriText : Nat → Cursor → Reading
  | 0, s => .ok ([], s)
  | fuel + 1, s => do
    let (text, s) := s.takeWhile fun c => isUriChar c && c != '%'
    if s.peek == '%' then
      let (bytes, s) ← uriBytes (s.rest.length + 1) s
      match Utf8.decodeStrict bytes with
      | .ok chars =>
        let (others, s) ← uriText fuel s
        return (text ++ chars ++ others, s)
      | .error _ => throw .malformed
    else return (text, s)

/-- Reads a tag without its handle; it has to have characters. -/
def uri (s : Cursor) : Except Fault (String × Cursor) := do
  if !isUriChar s.peek then throw .malformed
  let (text, s) ← uriText (s.rest.length + 1) s
  return (String.ofList text, s)

/-- Reads the handle of a tag: exclamation marks around a name, or a single one before a space. -/
def tagHandle (s : Cursor) : Except Fault (String × Cursor) :=
  if s.peek != '!' then .error .malformed
  else if s.peekAt 1 == ' ' then .ok ("!", s.step)
  else
    let (name, s) := s.step.takeWhile isNameChar
    if s.peek == '!' then .ok (String.ofList ('!' :: name ++ ['!']), s.step) else .error .malformed

/-- Whether an exclamation mark stands in the word at the cursor. -/
def hasHandle (s : Cursor) : Bool :=
  (s.rest.takeWhile fun c => !isSpaceOrEnd c).contains '!'

/-- Reads a tag at its exclamation mark. -/
def tagText (s : Cursor) : Except Fault (TagText × Cursor) := do
  let next := s.peekAt 1
  let (tag, s) ←
    if next == '<' then do
      let (suffix, s) ← uri (s.forward 2)
      if s.peek != '>' then throw .malformed
      pure ((⟨none, suffix⟩ : TagText), s.step)
    else if isBlankOrEnd next then pure (⟨none, "!"⟩, s.step)
    else do
      let (handle, s) ← if hasHandle s.step then tagHandle s else pure ("!", s.step)
      let (suffix, s) ← uri s
      pure (⟨some handle, suffix⟩, s)
  if !isSpaceOrEnd s.peek then throw .malformed
  return (tag, s)

/-- The most digits of a number in a directive. -/
def directiveDigits : Nat :=
  4300

/-- Reads a number of a directive. -/
def directiveNumber (s : Cursor) : Except Fault (Nat × Cursor) :=
  let (digits, s) := s.takeWhile fun c => '0' ≤ c && c ≤ '9'
  if digits.isEmpty then .error .malformed
  else if directiveDigits < digits.length then .error (.numeralTooLong digits.length)
  else .ok (digits.foldl (fun n c => n * 10 + (c.toNat - 48)) 0, s)

/-- Reads the version that a directive names. -/
def versionDirective (s : Cursor) : Except Fault (Directive × Cursor) := do
  let (major, s) ← directiveNumber (s.skipWhile (· == ' '))
  if s.peek != '.' then throw .malformed
  let (minor, s) ← directiveNumber s.step
  if !isSpaceOrEnd s.peek then throw .malformed
  return (.version major minor, s)

/-- Reads a handle and what it stands for. -/
def handleDirective (s : Cursor) : Except Fault (Directive × Cursor) := do
  let (handle, s) ← tagHandle (s.skipWhile (· == ' '))
  if s.peek != ' ' then throw .malformed
  let (replacement, s) ← uri (s.skipWhile (· == ' '))
  if !isSpaceOrEnd s.peek then throw .malformed
  return (.tagHandle handle replacement, s)

/-- Reads a directive at its percent sign. -/
def directiveLine (s : Cursor) : Except Fault (Directive × Cursor) := do
  let (name, s) := s.step.takeWhile isNameChar
  if name.isEmpty || !isSpaceOrEnd s.peek then throw .malformed
  let (directive, s) ← match String.ofList name with
    | "YAML" => versionDirective s
    | "TAG" => handleDirective s
    | _ => pure (.other, s.skipLine)
  return (directive, ← restOfLine s)

end Yaml

end Minifier
