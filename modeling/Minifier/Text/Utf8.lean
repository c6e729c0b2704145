import Minifier.Text.Glyph

/-!
# Reading and writing bytes

Files hold bytes. `decode` reads them as UTF-8 and keeps each byte outside a well-formed sequence
as an opaque glyph; `encode` writes every glyph back as the bytes it came from. `firstFault?` says
where and why a strict reader would stop, and `decodeStrict` is that reader.
-/

set_option autoImplicit false

namespace Minifier

/-- The bytes of a file. -/
abbrev Bytes := List UInt8

namespace Utf8

/-- Whether a byte continues a sequence. -/
def isContinuation (b : UInt8) : Bool :=
  0x80 ≤ b && b ≤ 0xBF

/-- Whether `second` may follow the lead byte `lead`: neither overlong, nor a surrogate, nor above
the last code point. -/
def allowsSecond (lead second : UInt8) : Bool :=
  isContinuation second &&
    !(lead == 0xE0 && second < 0xA0) && !(lead == 0xED && 0xA0 ≤ second) &&
    !(lead == 0xF0 && second < 0x90) && !(lead == 0xF4 && 0x90 ≤ second)

/-- The payload of a continuation byte. -/
def payload (b : UInt8) : Nat :=
  b.toNat - 0x80

/-- Why a strict reader stops. -/
inductive Reason where
  | invalidStart
  | invalidContinuation
  | unexpectedEnd
  deriving DecidableEq, Repr

/-- What stands at the start of a list of bytes: a character with the number of its continuation
bytes, or a reason to stop with the number of bytes at fault. -/
inductive Head where
  | char (c : Char) (more : Nat)
  | fault (reason : Reason) (length : Nat)
  deriving Repr

/-- Reads the sequence that starts with the byte `lead`, before `rest`. -/
def head (lead : UInt8) (rest : Bytes) : Head :=
  if lead < 0x80 then .char (Char.ofNat lead.toNat) 0
  else if lead < 0xC2 then .fault .invalidStart 1
  else if lead < 0xE0 then
    match rest with
    | [] => .fault .unexpectedEnd 1
    | b :: _ =>
      if isContinuation b then .char (Char.ofNat ((lead.toNat - 0xC0) * 64 + payload b)) 1
      else .fault .invalidContinuation 1
  else if lead < 0xF0 then
    match rest with
    | [] => .fault .unexpectedEnd 1
    | b :: rest =>
      if !allowsSecond lead b then .fault .invalidContinuation 1
      else
        match rest with
        | [] => .fault .unexpectedEnd 2
        | c :: _ =>
          if isContinuation c then
            .char (Char.ofNat (((lead.toNat - 0xE0) * 64 + payload b) * 64 + payload c)) 2
          else .fault .invalidContinuation 2
  else if lead < 0xF5 then
    match rest with
    | [] => .fault .unexpectedEnd 1
    | b :: rest =>
      if !allowsSecond lead b then .fault .invalidContinuation 1
      else
        match rest with
        | [] => .fault .unexpectedEnd 2
        | c :: rest =>
          if !isContinuation c then .fault .invalidContinuation 2
          else
            match rest with
            | [] => .fault .unexpectedEnd 3
            | d :: _ =>
              if isContinuation d then
                .char (Char.ofNat
                  ((((lead.toNat - 0xF0) * 64 + payload b) * 64 + payload c) * 64 + payload d)) 3
              else .fault .invalidContinuation 3
  else .fault .invalidStart 1

/-- Reads bytes after `skip` further bytes of a sequence that is already read. -/
def decodeAfter : Nat → Bytes → Text
  | _, [] => []
  | skip + 1, _ :: rest => decodeAfter skip rest
  | 0, lead :: rest =>
    match head lead rest with
    | .char c more => .char c :: decodeAfter more rest
    | .fault _ _ => .byte lead :: decodeAfter 0 rest

/-- Reads bytes as UTF-8; a byte outside a well-formed sequence becomes an opaque glyph. -/
def decode (bytes : Bytes) : Text :=
  decodeAfter 0 bytes

/-- The bytes of a glyph. -/
def encodeGlyph : Glyph → Bytes
  | .char c => String.utf8EncodeChar c
  | .byte b => [b]

/-- Writes a text; every opaque glyph becomes its byte again. -/
def encode (text : Text) : Bytes :=
  text.flatMap encodeGlyph

/-- Where a strict reader stops: the first byte at fault, its place, the number of bytes at fault
and the reason. -/
structure Fault where
  byte : UInt8
  start : Nat
  length : Nat
  reason : Reason
  deriving DecidableEq, Repr

/-- The first fault of the bytes that start at place `start`, after `skip` bytes already read. -/
def firstFaultAfter : Nat → Nat → Bytes → Option Fault
  | _, _, [] => none
  | start, skip + 1, _ :: rest => firstFaultAfter (start + 1) skip rest
  | start, 0, lead :: rest =>
    match head lead rest with
    | .char _ more => firstFaultAfter (start + 1) more rest
    | .fault reason length => some ⟨lead, start, length, reason⟩

/-- The first fault of some bytes, absent when they are well-formed. -/
def firstFault? (bytes : Bytes) : Option Fault :=
  firstFaultAfter 0 0 bytes

/-- The wording of a reason. -/
def Reason.message : Reason → String
  | .invalidStart => "invalid start byte"
  | .invalidContinuation => "invalid continuation byte"
  | .unexpectedEnd => "unexpected end of data"

/-- A number below 256 as two hexadecimal digits. -/
def twoHexDigits (n : Nat) : String :=
  String.ofList [Nat.digitChar (n / 16), Nat.digitChar (n % 16)]

/-- The wording of a fault: one byte is shown, several are given by their places. -/
def Fault.message (fault : Fault) : String :=
  let place :=
    if fault.length == 1 then
      "byte 0x" ++ twoHexDigits fault.byte.toNat ++ " in position " ++ toString fault.start
    else
      "bytes in position " ++ toString fault.start ++ "-" ++
        toString (fault.start + fault.length - 1)
  "'utf-8' codec can't decode " ++ place ++ ": " ++ fault.reason.message

/-- Reads bytes that must be well-formed. -/
def decodeStrict (bytes : Bytes) : Except Fault (List Char) :=
  match firstFault? bytes with
  | some fault => .error fault
  | none => .ok (Text.chars (decode bytes))

end Utf8

end Minifier
