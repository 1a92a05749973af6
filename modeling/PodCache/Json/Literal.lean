import PodCache.Json.Token
import PodCache.Text.Utf8

/-!
# JSON strings

`quote` writes a text as a JSON string: quotes, backslashes and controls are escaped, all else is
written as it is.  `unquote?` gives the text that the octets between two quotes stand for.  It
refuses octets that are not UTF-8 and surrogates that do not come in pairs.
-/

namespace PodCache.Json

open Ascii Text

/-! ## Writing -/

/-- The octet of a hexadecimal digit. -/
def hexOctet (n : Nat) : UInt8 := UInt8.ofNat (Bytes.hexDigit n).toNat

/-- One character as it stands in a JSON string. -/
def escapeChar (c : Char) : Bytes :=
  match c.toNat with
  | 8 => [backslash, lowerB]
  | 9 => [backslash, lowerT]
  | 10 => [backslash, lowerN]
  | 12 => [backslash, lowerF]
  | 13 => [backslash, lowerR]
  | 34 => [backslash, Ascii.quote]
  | 92 => [backslash, backslash]
  | n =>
    if n < 32 then [backslash, lowerU, zero, zero, hexOctet (n / 16), hexOctet (n % 16)]
    else Utf8.encodeChar c

/-- A text between quotes. -/
def quote (s : String) : Bytes :=
  Ascii.quote :: s.toList.flatMap escapeChar ++ [Ascii.quote]

/-! ## Reading -/

/-- The number that four hexadecimal digits spell. -/
def hexQuad? (a b c d : UInt8) : Option Nat := do
  let w ← Bytes.hexValue? (Char.ofNat a.toNat)
  let x ← Bytes.hexValue? (Char.ofNat b.toNat)
  let y ← Bytes.hexValue? (Char.ofNat c.toNat)
  let z ← Bytes.hexValue? (Char.ofNat d.toNat)
  return w * 4096 + x * 256 + y * 16 + z

/-- The character that an escape of one letter stands for. -/
def shortEscape? : UInt8 → Option Char
  | Ascii.quote => some '"'
  | backslash => some '\\'
  | slash => some '/'
  | lowerB => some '\x08'
  | lowerF => some '\x0c'
  | lowerN => some '\n'
  | lowerR => some '\r'
  | lowerT => some '\t'
  | _ => none

/-- The character that an escape stands for, without its backslash, and what follows.  A high
surrogate needs the escape of a low one after it. -/
def readEscape? : Bytes → Option (Char × Bytes)
  | lowerU :: a :: b :: c :: d :: rest => do
    let n ← hexQuad? a b c d
    if n < 0xD800 ∨ 0xDFFF < n then return (Char.ofNat n, rest)
    else if n < 0xDC00 then
      match rest with
      | backslash :: lowerU :: e :: f :: g :: h :: rest' => do
        let m ← hexQuad? e f g h
        if 0xDC00 ≤ m ∧ m ≤ 0xDFFF then
          return (Char.ofNat (0x10000 + (n - 0xD800) * 1024 + (m - 0xDC00)), rest')
        else none
      | _ => none
    else none
  | e :: rest => (shortEscape? e).map fun c => (c, rest)
  | [] => none

theorem length_of_readEscape? {bytes rest : Bytes} {c : Char}
    (h : readEscape? bytes = some (c, rest)) : rest.length < bytes.length := by
  unfold readEscape? at h
  split at h
  · obtain ⟨n, -, h⟩ := Option.bind_eq_some_iff.1 h
    split at h
    · obtain ⟨-, rfl⟩ := Prod.mk.inj (Option.some.inj h)
      simp only [List.length_cons]
      omega
    · split at h
      · split at h
        · obtain ⟨m, -, h⟩ := Option.bind_eq_some_iff.1 h
          split at h
          · obtain ⟨-, rfl⟩ := Prod.mk.inj (Option.some.inj h)
            simp only [List.length_cons]
            omega
          · simp at h
        · simp at h
      · simp at h
  · obtain ⟨x, -, hx⟩ := Option.map_eq_some_iff.1 h
    obtain ⟨-, rfl⟩ := Prod.mk.inj hx
    exact Nat.lt_succ_self _
  · simp at h

/-- The next character of a string's content, and what follows it. -/
def readChar? (b : UInt8) (rest : Bytes) : Option (Char × Bytes) :=
  if b = backslash then readEscape? rest
  else
    match Utf8.readChar b rest with
    | (some c, rest') => some (c, rest')
    | (none, _) => none

theorem length_of_readChar? {b : UInt8} {bytes rest : Bytes} {c : Char}
    (h : readChar? b bytes = some (c, rest)) : rest.length ≤ bytes.length := by
  unfold readChar? at h
  split at h
  · exact Nat.le_of_lt (length_of_readEscape? h)
  · split at h
    · rename_i c' rest' heq
      obtain ⟨-, rfl⟩ := Prod.mk.inj (Option.some.inj h)
      have := Utf8.length_readChar_le b bytes
      rwa [heq] at this
    · simp at h

/-- The characters that the content of a string stands for. -/
def unquoteChars? : Bytes → Option (List Char)
  | [] => some []
  | b :: rest =>
    match h : readChar? b rest with
    | none => none
    | some (c, rest') =>
      have : rest'.length < rest.length + 1 := Nat.lt_succ_of_le (length_of_readChar? h)
      (unquoteChars? rest').map (c :: ·)
termination_by bytes => bytes.length

/-- The text that the content of a string stands for. -/
def unquote? (raw : Bytes) : Option String := (unquoteChars? raw).map String.ofList

end PodCache.Json
