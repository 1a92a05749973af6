import PodCache.Text.Mark
import PodCache.Text.Visible

/-!
# Quoted text

Messages show names and addresses between double quotes.  Inside the quotes a quote or a backslash
is preceded by a backslash, the common controls have their short names, and every other character
that is not printable is written by its code point, so that two different texts never look alike.
A character is printable when a reader can see it on its own: what is not visible, marks that extend
the character before them, and letters that only fill a place are not.
-/

namespace PodCache.Text

/-- Whether a character is a letter without a shape, which fills the place of another one. -/
def isFiller (c : Char) : Bool := ['\u115F', '\u1160', '\u3164', '\uFFA0'].contains c

/-- Whether quoted text shows the character as itself. -/
def isPrintable (c : Char) : Bool :=
  let n := c.toNat
  if n < 0x7F then 0x20 ≤ n else isVisible c && !isExtending c && !isFiller c

/-- The digits of a number in lower-case hexadecimal, without leading zeros. -/
def lowerHex (n : Nat) : List Char := Nat.toDigits 16 n

/-- One character as it stands between double quotes. -/
def quoteChar (c : Char) : List Char :=
  match c.toNat with
  | 0 => ['\\', '0']
  | 9 => ['\\', 't']
  | 10 => ['\\', 'n']
  | 13 => ['\\', 'r']
  | 34 => ['\\', '"']
  | 92 => ['\\', '\\']
  | n => if isPrintable c then [c] else ['\\', 'u', '\x7b'] ++ lowerHex n ++ ['\x7d']

/-- The text between double quotes. -/
def quoted (s : String) : String :=
  String.ofList ('"' :: s.toList.flatMap quoteChar ++ ['"'])

end PodCache.Text
