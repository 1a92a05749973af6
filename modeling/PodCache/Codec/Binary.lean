import PodCache.Codec.Basic
import PodCache.Json.Value
import PodCache.Text.Utf8

/-!
# Values in binary form

A compact form without field names: numbers are little-endian words of their own width, a text or a
list is preceded by its length as a 64-bit word, and a single octet tells whether an optional value
is there.  Octets after the value are ignored.  JSON values are written as their bare content, from
which they cannot be read back.
-/

namespace PodCache

namespace Binary

/-- A number as `width` octets, the low one first. -/
def putWord : Nat → Nat → Bytes
  | 0, _ => []
  | width + 1, n => UInt8.ofNat (n % 256) :: putWord width (n / 256)

/-- The number in the first `width` octets, and what follows them. -/
def takeWord : Nat → Bytes → Option (Nat × Bytes)
  | 0, bytes => some (0, bytes)
  | _ + 1, [] => none
  | width + 1, b :: bytes => (takeWord width bytes).map fun r => (b.toNat + 256 * r.1, r.2)

/-- How values of type `V` are laid out at the front of a byte sequence. -/
structure Format (V : Type) where
  put : V → Bytes
  take : Bytes → Option (V × Bytes)

namespace Format

variable {V : Type}

/-- Unsigned 64-bit numbers. -/
def word : Format UInt64 where
  put n := putWord 8 n.toNat
  take bytes := (takeWord 8 bytes).map fun r => (UInt64.ofNat r.1, r.2)

/-- Signed 64-bit numbers. -/
def long : Format Int64 where
  put n := putWord 8 n.toUInt64.toNat
  take bytes := (takeWord 8 bytes).map fun r => ((UInt64.ofNat r.1).toInt64, r.2)

/-- Signed 32-bit numbers. -/
def short : Format Int32 where
  put n := putWord 4 n.toUInt32.toNat
  take bytes := (takeWord 4 bytes).map fun r => ((UInt32.ofNat r.1).toInt32, r.2)

/-- Truth values: zero or one. -/
def bool : Format Bool where
  put b := [if b then 1 else 0]
  take
    | 0 :: bytes => some (false, bytes)
    | 1 :: bytes => some (true, bytes)
    | _ => none

/-- Texts: their length in octets, then their UTF-8 octets. -/
def string : Format String where
  put s := putWord 8 (Bytes.ofText s).length ++ Bytes.ofText s
  take bytes := do
    let (length, rest) ← takeWord 8 bytes
    if length ≤ rest.length then
      let s ← Bytes.text? (rest.take length)
      return (s, rest.drop length)
    else none

/-- Values that may be absent. -/
def optional (format : Format V) : Format (Option V) where
  put
    | none => [0]
    | some v => 1 :: format.put v
  take
    | 0 :: bytes => some (none, bytes)
    | 1 :: bytes => (format.take bytes).map fun r => (some r.1, r.2)
    | _ => none

/-- A given number of values. -/
def takeMany (format : Format V) : Nat → Bytes → Option (List V × Bytes)
  | 0, bytes => some ([], bytes)
  | n + 1, bytes => do
    let (v, rest) ← format.take bytes
    let (vs, rest') ← takeMany format n rest
    return (v :: vs, rest')

/-- Lists: their length, then their items. -/
def list (format : Format V) : Format (List V) where
  put vs := putWord 8 vs.length ++ vs.flatMap format.put
  take bytes := do
    let (length, rest) ← takeWord 8 bytes
    takeMany format length rest

/-- Users: the number, then the name. -/
def user : Format User where
  put u := word.put u.id ++ string.put u.name
  take bytes := do
    let (id, rest) ← word.take bytes
    let (name, rest') ← string.take rest
    return (⟨id, name⟩, rest')

end Format

/-! ## JSON values -/

/-- The 64-bit word of a number: two's complement or floating point. -/
def numberWord : Json.Number → Nat
  | .int n => (n % 0x10000000000000000).toNat
  | .float negative x => (if negative then 0x8000000000000000 else 0) + x.bits

mutual

/-- The bare content of a JSON value. -/
def putJson : Json.Value → Bytes
  | .null => []
  | .bool b => [if b then 1 else 0]
  | .number n => putWord 8 (numberWord n)
  | .string s => Format.string.put s
  | .array items => putWord 8 items.length ++ putItems items
  | .object members => putWord 8 members.length ++ putMembers members

/-- The items of an array, one after the other. -/
def putItems : List Json.Value → Bytes
  | [] => []
  | v :: rest => putJson v ++ putItems rest

/-- The members of an object, one after the other. -/
def putMembers : List (String × Json.Value) → Bytes
  | [] => []
  | (name, v) :: rest => Format.string.put name ++ putJson v ++ putMembers rest

end

/-- JSON values, which carry no mark of their kind and so are never read. -/
def Format.value : Format Json.Value := ⟨putJson, fun _ => none⟩

end Binary

namespace Codec

/-- Stores values in binary form. -/
def binary {V : Type} (format : Binary.Format V) : Codec V :=
  ofReader format.put fun bytes => (format.take bytes).map Prod.fst

end Codec

end PodCache
