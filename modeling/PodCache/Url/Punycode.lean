import PodCache.Text.Split

/-!
# Punycode

A label with characters beyond ASCII is written with ASCII letters and digits alone: first its ASCII
characters, then, in ascending order of code points, where the others are to be inserted.  Each
insertion is a number in a variable-length notation of base 36 whose digit thresholds adapt to the
numbers before it.  `encode` writes a label so, and `decode?` reads it.
-/

namespace PodCache.Url

/-! ## Limits -/

/-- What is too much for a reader of URLs.  There is no limit but those that a reader has of its
own. -/
structure Limits where
  /-- The greatest length of a label beyond ASCII. -/
  label : Option Nat := none
  /-- The greatest length of a Punycode. -/
  code : Option Nat := none
  /-- The greatest number in a Punycode, and the greatest one that a digit may count. -/
  number : Option Nat := none

/-- Whether a number is within a limit, if there is one. -/
def isWithin (limit : Option Nat) (n : Nat) : Bool := limit.all (n ≤ ·)

@[simp] theorem isWithin_none (n : Nat) : isWithin none n = true := rfl

namespace Punycode

/-! ## Digits and bias -/

/-- The character of a digit below 36. -/
def digit (d : Nat) : Char := if d < 26 then Char.ofNat (97 + d) else Char.ofNat (22 + d)

/-- The digit that a character stands for; capital letters are the same as small ones. -/
def digitValue? (c : Char) : Option Nat :=
  let n := c.toLower.toNat
  if 97 ≤ n ∧ n ≤ 122 then some (n - 97)
  else if 48 ≤ n ∧ n ≤ 57 then some (n - 22)
  else none

/-- Reading a digit gives back what was written. -/
theorem digitValue?_digit {d : Nat} (h : d < 36) : digitValue? (digit d) = some d := by
  have all : ∀ e ∈ List.range 36, digitValue? (digit e) = some e := by decide
  exact all d (List.mem_range.mpr h)

/-- The threshold of the digit at a position, between 1 and 26. -/
def threshold (position bias : Nat) : Nat := min 26 (max 1 (position - bias))

theorem threshold_bounds (position bias : Nat) :
    1 ≤ threshold position bias ∧ threshold position bias ≤ 26 := by
  unfold threshold
  omega

/-- Divides by 35 until the number is at most 455, counting the divisions. -/
def scale (delta count : Nat) : Nat × Nat :=
  if 455 < delta then scale (delta / 35) (count + 1) else (delta, count)
termination_by delta
decreasing_by omega

/-- The bias after an insertion, when `points` characters are in place. -/
def adapt (delta points : Nat) (first : Bool) : Nat :=
  let damped := if first then delta / 700 else delta / 2
  let (delta, count) := scale (damped + damped / points) 0
  36 * count + 36 * delta / (delta + 38)

/-! ## Writing -/

/-- The digits of a number, from a position on. -/
def digits (bias position n : Nat) : List Char :=
  let t := threshold position bias
  if n < t then [digit n]
  else digit (t + (n - t) % (36 - t)) :: digits bias (position + 36) ((n - t) / (36 - t))
termination_by n
decreasing_by
  have h := threshold_bounds position bias
  exact Nat.lt_of_le_of_lt (Nat.div_le_self _ _) (by omega)

/-- How far the insertions have come. -/
structure Progress where
  written : List Char
  /-- The insertion states passed since the last insertion. -/
  delta : Nat
  bias : Nat
  /-- How many characters are in place. -/
  placed : Nat

/-- Passes one character of the label while the characters of one code point are inserted. -/
def visit (basic point : Nat) (p : Progress) (c : Char) : Progress :=
  if c.toNat < point then { p with delta := p.delta + 1 }
  else if c.toNat = point then
    { written := p.written ++ digits p.bias 36 p.delta
      delta := 0
      bias := adapt p.delta (p.placed + 1) (p.placed == basic)
      placed := p.placed + 1 }
  else p

/-- Inserts the characters of the code points in turn. -/
def insertAll (label : List Char) (basic : Nat) : List Nat → Nat → Progress → Progress
  | [], _, p => p
  | point :: points, reached, p =>
    let p := { p with delta := p.delta + (point - reached) * (p.placed + 1) }
    let p := label.foldl (visit basic point) p
    insertAll label basic points (point + 1) { p with delta := p.delta + 1 }

/-- The encoding of a label. -/
def encode (label : List Char) : List Char :=
  let basic := label.filter (·.toNat < 128)
  let points := ((label.map Char.toNat).filter (128 ≤ ·)).eraseDups.mergeSort
  basic ++ (if basic.isEmpty then [] else ['-']) ++
    (insertAll label basic.length points 128 ⟨[], 0, 72, basic.length⟩).written

/-! ## Reading -/

/-- How far the reading has come. -/
structure Reading where
  label : List Char
  /-- The code point of the last insertion. -/
  point : Nat := 128
  /-- Where the count of insertion states begins. -/
  start : Nat := 0
  bias : Nat := 72
  /-- The count of insertion states so far, including the digits of the number under way. -/
  reached : Nat := 0
  /-- The position of the next digit of the number under way. -/
  position : Nat := 36
  /-- What the next digit of the number under way counts. -/
  weight : Nat := 1

/-- Inserts the character at the insertion state that is reached. -/
def Reading.insert? (r : Reading) : Option Reading :=
  let size := r.label.length + 1
  let point := r.point + r.reached / size
  let place := r.reached % size
  if point.isValidChar then
    some {
      label := r.label.insertIdx place (Char.ofNat point)
      point
      start := place + 1
      bias := adapt (r.reached - r.start) size (r.start == 0)
      reached := place + 1 }
  else none

/-- Reads one digit.  Numbers that are too great are refused. -/
def Reading.next? (limits : Limits) (r : Reading) (c : Char) : Option Reading := do
  let d ← digitValue? c
  let t := threshold r.position r.bias
  let reached := r.reached + d * r.weight
  let weight := r.weight * (36 - t)
  if !isWithin limits.number reached then none
  else if d < t then Reading.insert? { r with reached }
  else if !isWithin limits.number weight then none
  else some { r with reached, weight, position := r.position + 36 }

/-- The ASCII characters of an encoded label and the digits after them.  A hyphen ends the former
unless it comes first. -/
def cut (code : List Char) : List Char × List Char :=
  match Text.cutLast '-' code with
  | (none, digits) => ([], digits)
  | (some [], _) => ([], code)
  | (some basic, digits) => (basic, digits)

/-- The label that is encoded, with its ASCII letters in lower case. -/
def decode? (limits : Limits) (code : List Char) : Option (List Char) := do
  let (basic, digits) := cut code
  if basic.any (128 ≤ ·.toNat) then none
  let r ← digits.foldlM (Reading.next? limits) { label := basic.map Char.toLower }
  if r.position = 36 then some r.label else none

end Punycode

end PodCache.Url
