/-!
# Bytes

Payloads, stored values and wire messages are plain lists of octets, so that every codec of the
library is a function on lists.  This file fixes that type and its lower-case hexadecimal text.
-/

namespace PodCache

/-- A finite sequence of octets. -/
abbrev Bytes := List UInt8

namespace Bytes

/-- The lower-case hexadecimal digit of a number below sixteen. -/
def hexDigit (n : Nat) : Char :=
  if n < 10 then Char.ofNat (48 + n) else Char.ofNat (87 + n)

/-- The value of a hexadecimal digit of either case. -/
def hexValue? (c : Char) : Option Nat :=
  let n := c.toNat
  if 48 ≤ n ∧ n ≤ 57 then some (n - 48)
  else if 97 ≤ n ∧ n ≤ 102 then some (n - 87)
  else if 65 ≤ n ∧ n ≤ 70 then some (n - 55)
  else none

/-- Two hexadecimal digits for each octet, the high half first. -/
def hexChars (bytes : Bytes) : List Char :=
  bytes.flatMap fun b => [hexDigit (b.toNat / 16), hexDigit (b.toNat % 16)]

/-- The hexadecimal text of a byte sequence. -/
def toHex (bytes : Bytes) : String := String.ofList bytes.hexChars

/-- Reads pairs of hexadecimal digits; an odd digit or any other character is refused. -/
def ofHexChars? : List Char → Option Bytes
  | [] => some []
  | [_] => none
  | a :: b :: rest => do
    let high ← hexValue? a
    let low ← hexValue? b
    let bytes ← ofHexChars? rest
    return UInt8.ofNat (16 * high + low) :: bytes

/-- The byte sequence that a hexadecimal text denotes. -/
def ofHex? (text : String) : Option Bytes := ofHexChars? text.toList

end Bytes

end PodCache
