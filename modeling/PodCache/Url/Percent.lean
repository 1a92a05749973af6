import PodCache.Text.Utf8

/-!
# Percent encoding

In a URL a character that would be taken for a separator, or that is not a visible ASCII character,
is written as its UTF-8 octets, each a percent sign and two hexadecimal digits.  Every part of a URL
has its own set of characters that are written so; the percent sign itself is in none of them.
-/

namespace PodCache.Url.Percent

/-- Controls and everything beyond ASCII: in every set. -/
def controls (c : Char) : Bool := c.toNat < 0x20 || 0x7F ≤ c.toNat

/-- The set of a fragment. -/
def fragmentSet (c : Char) : Bool := controls c || [' ', '"', '<', '>', '\x60'].contains c

/-- The set of a path. -/
def pathSet (c : Char) : Bool := fragmentSet c || ['#', '?', '\x7b', '\x7d'].contains c

/-- The set of a user name and a password. -/
def userinfoSet (c : Char) : Bool :=
  pathSet c || ['/', ':', ';', '=', '@', '[', '\\', ']', '^', '|'].contains c

/-- The set of a query, which is larger for the special schemes. -/
def querySet (special : Bool) (c : Char) : Bool :=
  controls c || [' ', '"', '#', '<', '>'].contains c || (special && c == '\'')

/-- The upper-case hexadecimal digit of a number below sixteen. -/
def upperHexDigit (n : Nat) : Char :=
  if n < 10 then Char.ofNat (48 + n) else Char.ofNat (55 + n)

/-- An octet as it is written. -/
def octet (b : UInt8) : List Char :=
  ['%', upperHexDigit (b.toNat / 16), upperHexDigit (b.toNat % 16)]

/-- A character, encoded if it is in the set. -/
def encodeChar (set : Char → Bool) (c : Char) : List Char :=
  if set c then (Text.Utf8.encodeChar c).flatMap octet else [c]

/-- A text with the characters of the set encoded. -/
def encode (set : Char → Bool) (cs : List Char) : List Char := cs.flatMap (encodeChar set)

/-- The octets that a text stands for; a percent sign without two digits stands for itself. -/
def decode : List Char → Bytes
  | [] => []
  | '%' :: a :: b :: rest =>
    match Bytes.hexValue? a, Bytes.hexValue? b with
    | some high, some low => UInt8.ofNat (16 * high + low) :: decode rest
    | _, _ => Text.Utf8.encodeChar '%' ++ decode (a :: b :: rest)
  | c :: rest => Text.Utf8.encodeChar c ++ decode rest

end PodCache.Url.Percent
