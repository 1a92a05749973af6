import PodCache.Text.Composition
import PodCache.Text.Visible
import PodCache.Url.Domain.MappingTable

/-!
# Characters of a domain name

Each character of a domain name is kept, left out, replaced by what it stands for, or refused.
Among the ASCII characters only the capital letters are replaced; which of the others no domain
holds is decided later.
-/

namespace PodCache.Url.Domain

/-- Whether a character is one of the two that only say whether their neighbours join. -/
def isJoiner (c : Char) : Bool := c == '\u200C' || c == '\u200D'

/-- The visible characters that are refused, as inclusive ranges: dots that stand for more than a
dot, outlines for describing characters, and marks of a missing character. -/
def refusedRanges : List (Nat × Nat) :=
  [(0x2024, 0x2026), (0x2488, 0x249B), (0x2FF0, 0x2FFF), (0x31EF, 0x31EF), (0x33C2, 0x33C2),
    (0x33C7, 0x33C7), (0x33D8, 0x33D8), (0xFE12, 0xFE12), (0xFE19, 0xFE19), (0xFE30, 0xFE30),
    (0xFE52, 0xFE52), (0xFFFC, 0xFFFD), (0x1F100, 0x1F100)]

/-- The characters that a domain name may hold although they are not visible in a text, as inclusive
ranges: letters, marks and signs that domain names know before texts do. -/
def additionalRanges : List (Nat × Nat) :=
  [(0x5C8, 0x5C9), (0xB53, 0xB54), (0x1ADE, 0x1ADF), (0x1AEC, 0x1AF0), (0x208F, 0x208F),
    (0x20C2, 0x20C4), (0x10ED9, 0x10ED9), (0x10EF9, 0x10EF9), (0x12550, 0x12686),
    (0x16D80, 0x16DAF), (0x18CD6, 0x18CD6), (0x18E00, 0x19191), (0x191A0, 0x191D2),
    (0x1D250, 0x1D28F), (0x1DB00, 0x1DBFF), (0x1DF90, 0x1DF9F), (0x1F6D9, 0x1F6D9),
    (0x1FA7D, 0x1FA7D), (0x1FA8B, 0x1FA8C), (0x1FACC, 0x1FACC), (0x1FADD, 0x1FADD),
    (0x1FAEB, 0x1FAEB), (0x1FAF9, 0x1FAFA), (0x3D000, 0x3FC3F)]

/-- The letter that a letter of one of the alphabets stands for. -/
def fromAlphabet? (n : Nat) : Option Char :=
  (alphabets.find? fun (first, last, step, _) =>
    first ≤ n && n ≤ last && (n - first) % step == 0).map fun (first, _, _, target) =>
      Char.ofNat (target + (n - first))

/-- What a character that is listed by itself stands for. -/
def fromList? (n : Nat) : Option (List Char) :=
  match replacements.find? fun (first, targets) => first ≤ n && n < first + targets.length with
  | none => none
  | some (first, targets) => targets[n - first]?.filter (· ≠ [])

/-- What a character beyond ASCII stands for, if it is replaced. -/
def replacement? (c : Char) : Option (List Char) :=
  match fromAlphabet? c.toNat with
  | some letter => some [letter]
  | none => fromList? c.toNat

/-- Whether a character beyond ASCII that is neither left out nor replaced may stand in a domain
name. -/
def isAllowed (c : Char) : Bool :=
  isJoiner c || (Text.isVisible c && !Text.inRanges refusedRanges c) ||
    Text.inRanges additionalRanges c

/-- What becomes of a character in a domain name; `none` if it is refused. -/
def mapChar? (c : Char) : Option (List Char) :=
  if c.toNat < 128 then some [c.toLower]
  else if Text.inRanges ignoredRanges c then some []
  else
    match replacement? c with
    | some cs => some cs
    | none => if isAllowed c then some [c] else none

/-- Whether a character is kept. -/
def isKept (c : Char) : Bool := mapChar? c == some [c]

/-- The text that a domain name stands for, in composed form. -/
def normalForm? (domain : List Char) : Option (List Char) :=
  (domain.mapM mapChar?).map fun pieces => Text.compose pieces.flatten

end PodCache.Url.Domain
