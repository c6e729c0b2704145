import Minifier.Text.Utf8

/-!
# Bytes in base 64

Four characters of an alphabet of sixty-four write three bytes. Other characters are passed over;
two equals signs end a group of two characters, one ends a group of three. Main definition:
`Base64.decode?`.
-/

set_option autoImplicit false

namespace Minifier

namespace Base64

/-- The six bits that a character writes. -/
def sextet? (c : Char) : Option Nat :=
  if 'A' ≤ c && c ≤ 'Z' then some (c.toNat - 65)
  else if 'a' ≤ c && c ≤ 'z' then some (c.toNat - 71)
  else if '0' ≤ c && c ≤ '9' then some (c.toNat + 4)
  else if c == '+' then some 62
  else if c == '/' then some 63
  else none

/-- Decodes characters after `count` of a group have been read, with the bits `left` of the last one
still to be written, and `pads` equals signs since then. -/
def decodeFrom : Nat → Nat → Nat → List Char → Option Bytes
  | count, _, _, [] => if count = 0 then some [] else none
  | count, left, pads, c :: rest =>
    if c == '=' then
      if 2 ≤ count then
        if 4 ≤ count + pads + 1 then some [] else decodeFrom count left (pads + 1) rest
      else decodeFrom count left pads rest
    else
      match sextet? c with
      | none => decodeFrom count left pads rest
      | some bits =>
        match count with
        | 0 => decodeFrom 1 bits 0 rest
        | 1 => (decodeFrom 2 (bits % 16) 0 rest).map (UInt8.ofNat (left * 4 + bits / 16) :: ·)
        | 2 => (decodeFrom 3 (bits % 4) 0 rest).map (UInt8.ofNat (left * 16 + bits / 4) :: ·)
        | _ => (decodeFrom 0 0 0 rest).map (UInt8.ofNat (left * 64 + bits) :: ·)

/-- The bytes that a text writes; none when a group is not finished. -/
def decode? (text : List Char) : Option Bytes :=
  decodeFrom 0 0 0 text

end Base64

end Minifier
