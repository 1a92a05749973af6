import PodCache.Bytes

/-!
# UTF-8

Text travels as UTF-8.  `encode` writes the shortest form of each character.  `readChar` reads one
character and refuses overlong forms, surrogates and values above the last code point; it also says
how many octets an ill-formed character takes up, which is what `decodeLossy` needs to put exactly
one replacement character for each ill-formed piece.
-/

namespace PodCache.Text.Utf8

/-- The octets of one character. -/
def encodeChar (c : Char) : Bytes :=
  let n := c.toNat
  if n < 0x80 then [UInt8.ofNat n]
  else if n < 0x800 then [UInt8.ofNat (0xC0 + n / 64), UInt8.ofNat (0x80 + n % 64)]
  else if n < 0x10000 then
    [UInt8.ofNat (0xE0 + n / 4096), UInt8.ofNat (0x80 + n / 64 % 64), UInt8.ofNat (0x80 + n % 64)]
  else
    [UInt8.ofNat (0xF0 + n / 262144), UInt8.ofNat (0x80 + n / 4096 % 64),
      UInt8.ofNat (0x80 + n / 64 % 64), UInt8.ofNat (0x80 + n % 64)]

/-- The octets of a list of characters. -/
def encodeChars (cs : List Char) : Bytes := cs.flatMap encodeChar

/-- The octets of a text. -/
def encode (s : String) : Bytes := encodeChars s.toList

/-- The six payload bits of a next octet between `low` and `high`, with what follows it. -/
def continuation? (low high : Nat) : Bytes → Option (Nat × Bytes)
  | [] => none
  | b :: rest => if low ≤ b.toNat ∧ b.toNat ≤ high then some (b.toNat % 64, rest) else none

/-- Reads the character that begins with the octet `lead`.  The first component is `none` when the
octets are ill-formed; the second is what follows the character, or the longest ill-formed piece. -/
def readChar (lead : UInt8) (rest : Bytes) : Option Char × Bytes :=
  let n := lead.toNat
  if n < 0x80 then (some (Char.ofNat n), rest)
  else if 0xC2 ≤ n ∧ n ≤ 0xDF then
    match continuation? 0x80 0xBF rest with
    | none => (none, rest)
    | some (a, rest₁) => (some (Char.ofNat ((n - 0xC0) * 64 + a)), rest₁)
  else if 0xE0 ≤ n ∧ n ≤ 0xEF then
    let low := if n = 0xE0 then 0xA0 else 0x80
    let high := if n = 0xED then 0x9F else 0xBF
    match continuation? low high rest with
    | none => (none, rest)
    | some (a, rest₁) =>
      match continuation? 0x80 0xBF rest₁ with
      | none => (none, rest₁)
      | some (b, rest₂) => (some (Char.ofNat ((n - 0xE0) * 4096 + a * 64 + b)), rest₂)
  else if 0xF0 ≤ n ∧ n ≤ 0xF4 then
    let low := if n = 0xF0 then 0x90 else 0x80
    let high := if n = 0xF4 then 0x8F else 0xBF
    match continuation? low high rest with
    | none => (none, rest)
    | some (a, rest₁) =>
      match continuation? 0x80 0xBF rest₁ with
      | none => (none, rest₁)
      | some (b, rest₂) =>
        match continuation? 0x80 0xBF rest₂ with
        | none => (none, rest₂)
        | some (c, rest₃) =>
          (some (Char.ofNat ((n - 0xF0) * 262144 + a * 4096 + b * 64 + c)), rest₃)
  else (none, rest)

theorem length_of_continuation? {low high a : Nat} {bytes rest : Bytes}
    (h : continuation? low high bytes = some (a, rest)) : rest.length < bytes.length := by
  cases bytes with
  | nil => simp [continuation?] at h
  | cons b tail =>
    simp only [continuation?] at h
    split at h
    · obtain ⟨-, rfl⟩ := Prod.mk.inj (Option.some.inj h)
      simp
    · simp at h

/-- Reading a character never gives octets back. -/
theorem length_readChar_le (lead : UInt8) (rest : Bytes) :
    (readChar lead rest).2.length ≤ rest.length := by
  simp only [readChar]
  repeat' split
  all_goals grind [→ length_of_continuation?]

/-- The characters of a well-formed sequence of octets. -/
def decodeChars? : Bytes → Option (List Char)
  | [] => some []
  | lead :: rest =>
    match h : readChar lead rest with
    | (none, _) => none
    | (some c, rest') =>
      have : rest'.length < rest.length + 1 := by
        have := length_readChar_le lead rest
        rw [h] at this
        exact Nat.lt_succ_of_le this
      (decodeChars? rest').map (c :: ·)
termination_by bytes => bytes.length

/-- The text of a well-formed sequence of octets. -/
def decode? (bytes : Bytes) : Option String := (decodeChars? bytes).map String.ofList

/-- The characters of any sequence of octets, with a replacement character for each ill-formed
piece. -/
def decodeLossyChars : Bytes → List Char
  | [] => []
  | lead :: rest =>
    have : (readChar lead rest).2.length < rest.length + 1 :=
      Nat.lt_succ_of_le (length_readChar_le lead rest)
    (readChar lead rest).1.getD (Char.ofNat 0xFFFD) :: decodeLossyChars (readChar lead rest).2
termination_by bytes => bytes.length

/-- The text of any sequence of octets. -/
def decodeLossy (bytes : Bytes) : String := String.ofList (decodeLossyChars bytes)

end PodCache.Text.Utf8

namespace PodCache.Bytes

/-- The UTF-8 octets of a text. -/
def ofText (s : String) : Bytes := Text.Utf8.encode s

/-- The text that the octets spell in UTF-8, if they are well-formed. -/
def text? (bytes : Bytes) : Option String := Text.Utf8.decode? bytes

end PodCache.Bytes
