import PodCache.Text.CombiningClass
import PodCache.Text.CompositionTable

/-!
# Composed text

The same text may be written with compound characters or with their parts, and with the marks of a
cluster in more than one order.  `compose` chooses one form: it takes all compounds apart, puts the
marks of each cluster into the order of their classes, and joins what can be joined.  A character
joins a following one when nothing between them keeps them apart.  Korean syllables are compounds
of up to three letters by a rule, all others by a table.  Characters that stand for another one
alone, and compounds that are not joined again, are not of this form; they are left as they are.
-/

namespace PodCache.Text

/-! ## Korean syllables -/

/-- The parts of a Korean syllable: a syllable and a final letter, or an initial and a vowel. -/
def syllableParts? (c : Char) : Option (Char × Char) :=
  let n := c.toNat
  if 0xAC00 ≤ n ∧ n ≤ 0xD7A3 then
    let place := n - 0xAC00
    if place % 28 = 0 then
      some (Char.ofNat (0x1100 + place / 588), Char.ofNat (0x1161 + place % 588 / 28))
    else some (Char.ofNat (n - place % 28), Char.ofNat (0x11A7 + place % 28))
  else none

/-- The Korean syllable that two parts make up. -/
def syllable? (a b : Char) : Option Char :=
  let m := a.toNat
  let n := b.toNat
  if 0x1100 ≤ m ∧ m ≤ 0x1112 ∧ 0x1161 ≤ n ∧ n ≤ 0x1175 then
    some (Char.ofNat (0xAC00 + ((m - 0x1100) * 21 + (n - 0x1161)) * 28))
  else if 0xAC00 ≤ m ∧ m ≤ 0xD7A3 ∧ (m - 0xAC00) % 28 = 0 ∧ 0x11A8 ≤ n ∧ n ≤ 0x11C2 then
    some (Char.ofNat (m + (n - 0x11A7)))
  else none

/-! ## Compounds -/

/-- The two parts of a compound. -/
def parts? (c : Char) : Option (Char × Char) :=
  if c.toNat < 0xC0 then none
  else
    match syllableParts? c with
    | some parts => some parts
    | none => (compositions.find? (·.2.2 == c)).map fun t => (t.1, t.2.1)

/-- The compound of two characters. -/
def compound? (a b : Char) : Option Char :=
  if b.toNat < 0x300 then none
  else
    match syllable? a b with
    | some c => some c
    | none => (compositions.find? fun t => t.1 == a && t.2.1 == b).map (·.2.2)

/-- The parts that are not compounds themselves, going down a number of levels. -/
def partsWithin : Nat → Char → List Char
  | 0, c => [c]
  | depth + 1, c =>
    match parts? c with
    | some (first, mark) => partsWithin depth first ++ [mark]
    | none => [c]

/-- The parts of a character.  No compound has more than four. -/
def decompose (c : Char) : List Char := partsWithin 3 c

/-! ## Order -/

/-- Puts a character before an ordered text: a mark passes the marks of lower classes. -/
def insertMark (c : Char) : List Char → List Char
  | [] => [c]
  | d :: rest =>
    if 0 < combiningClass d ∧ combiningClass d < combiningClass c then d :: insertMark c rest
    else c :: d :: rest

/-- The text with the marks of each cluster in the order of their classes. -/
def orderMarks (cs : List Char) : List Char := cs.foldr insertMark []

/-! ## Joining -/

/-- The end of a text while its characters are joined one by one. -/
structure Cluster where
  /-- The finished part of the text. -/
  finished : List Char := []
  /-- The character that the next ones may join. -/
  base : Option Char := none
  /-- The marks after the base that did not join it. -/
  marks : List Char := []

namespace Cluster

/-- The text so far. -/
def text (k : Cluster) : List Char := k.finished ++ k.base.toList ++ k.marks

/-- Whether nothing keeps a character apart from the base. -/
def reaches (k : Cluster) (c : Char) : Bool :=
  match k.marks.getLast? with
  | none => true
  | some mark => combiningClass mark < combiningClass c

/-- The base joined with a character. -/
def joined? (k : Cluster) (c : Char) : Option Char :=
  if k.reaches c then k.base.bind (compound? · c) else none

/-- Adds the next character. -/
def push (k : Cluster) (c : Char) : Cluster :=
  match k.joined? c with
  | some compound => { k with base := some compound }
  | none =>
    if combiningClass c = 0 then { finished := k.text, base := some c }
    else { k with marks := k.marks ++ [c] }

end Cluster

/-- The composed form of a text. -/
def compose (cs : List Char) : List Char :=
  ((orderMarks (cs.flatMap decompose)).foldl Cluster.push {}).text

end PodCache.Text
