import PodCache.Bytes
import PodCache.Text.Split

/-!
# Tables of characters

A property of characters is given by the ranges of code points that have it.  A relation between
characters is given by rows of text, in which a word joins characters by plus signs, each by its
code point in hexadecimal.
-/

namespace PodCache.Text

/-- Whether a character lies in one of the inclusive ranges. -/
def inRanges (ranges : List (Nat × Nat)) (c : Char) : Bool :=
  ranges.any fun r => r.1 ≤ c.toNat && c.toNat ≤ r.2

/-- What the first inclusive range that holds a character says of it. -/
def lookupRange {α : Type} (ranges : List (Nat × Nat × α)) (c : Char) : Option α :=
  (ranges.find? fun r => r.1 ≤ c.toNat && c.toNat ≤ r.2.1).map (·.2.2)

/-- The character with a code point in hexadecimal. -/
def readCode (digits : List Char) : Char :=
  Char.ofNat (digits.foldl (fun n d => 16 * n + (Bytes.hexValue? d).getD 0) 0)

/-- The characters that a word joins; a dash joins none. -/
def readWord (word : List Char) : List Char :=
  if word = ['-'] then [] else (splitAll (· == '+') word).map readCode

/-- The words of a row. -/
def readRow (row : String) : List (List Char) := (splitAll (· == ' ') row.toList).map readWord

end PodCache.Text
