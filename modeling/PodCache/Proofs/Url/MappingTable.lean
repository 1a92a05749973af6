import Mathlib.Tactic
import PodCache.Proofs.Text.Compounds
import PodCache.Url.Domain.Mapping

/-!
# Checking the tables of domain names

What the tables say of characters, as the bits of a number (`lostBits`): which of them are not kept.
All that is needed of the tables is checked at once (`isClosed_tables`).
-/

namespace PodCache.Url.Domain

open Text

/-- The code points of the letters of an alphabet. -/
def letters (alphabet : Nat × Nat × Nat × Nat) : List Nat :=
  (List.range ((alphabet.2.1 - alphabet.1) / alphabet.2.2.1 + 1)).map
    (alphabet.1 + · * alphabet.2.2.1)

/-- The code points of a row that are replaced. -/
def rowCodes (row : Nat × List (List Char)) : List Nat :=
  row.2.zipIdx.filterMap fun p => if p.1.isEmpty then none else some (row.1 + p.2)

/-- The bits of the code points that may not stand in a domain name. -/
def forbiddenBits : Nat :=
  let hidden := rangeMask invisibleRanges ||| rangeMask refusedRanges
  hidden ^^^ (hidden &&& rangeMask ((0x200C, 0x200D) :: additionalRanges))

/-- The bits of the code points beyond ASCII that are not kept. -/
def lostBits (rows : List (Nat × List (List Char))) : Nat :=
  rangeMask ignoredRanges ||| mask (alphabets.flatMap letters ++ rows.flatMap rowCodes) |||
    forbiddenBits

/-- Whether a character is kept, given the bits of those beyond ASCII that are not. -/
def keeps (lost : Nat) (c : Char) : Bool :=
  if c.toNat < 128 then c.toLower == c else !lost.testBit c.toNat

/-- Whether a compound is kept as its parts are. -/
def keepsParts (lost : Nat) (t : Char × Char × Char) : Bool :=
  keeps lost t.2.2 == (keeps lost t.1 && keeps lost t.2.1)

/-- Whether all characters of a range are kept. -/
def keepsRange (lost : Nat) (range : Nat × Nat) : Bool :=
  (lost >>> range.1) % 2 ^ (range.2 + 1 - range.1) == 0

/-- Whether the targets of an alphabet are kept. -/
def keepsAlphabet (lost : Nat) (alphabet : Nat × Nat × Nat × Nat) : Bool :=
  alphabet.1 ≤ alphabet.2.1 &&
    (letters alphabet).all fun n => keeps lost (Char.ofNat (alphabet.2.2.2 + (n - alphabet.1)))

/-- Whether the rows begin at a code point or later, one after the other. -/
def areApart : Nat → List (Nat × List (List Char)) → Bool
  | _, [] => true
  | n, row :: rows => n ≤ row.1 && areApart (row.1 + row.2.length) rows

/-- The Korean letters that make up syllables, and the syllables. -/
def koreanRanges : List (Nat × Nat) :=
  [(0x1100, 0x1112), (0x1161, 0x1175), (0x11A8, 0x11C2), (0xAC00, 0xD7A3)]

/-- Whether what a character is replaced by is kept, and compounds are kept as their parts are. -/
def isClosed (rows : List (Nat × List (List Char))) (ts : List (Char × Char × Char)) : Bool :=
  let lost := lostBits rows
  areApart 0 rows && rows.all (fun row => row.2.all fun target => target.all (keeps lost)) &&
    alphabets.all (keepsAlphabet lost) && ts.all (keepsParts lost) &&
    koreanRanges.all (keepsRange lost)

theorem replacements_eq {lists : List (List Char)}
    (h : replacementRows = lists.map String.ofList) :
    replacements = (lists.map words).filterMap rowReplacements? := by
  rw [← map_readRow h, List.filterMap_map]
  rfl

set_option maxRecDepth 10000 in
theorem lists_tables : Lists replacementRows fun rows => Lists compositionRows fun ts =>
    isClosed ((rows.map words).filterMap rowReplacements?) ((ts.map words).flatMap rowCompounds) =
      true := by
  -- The texts of the rows become lists of characters first, as the kernel is slow on texts.
  unfold replacementRows
  repeat refine lists_eight ?_
  repeat refine lists_cons ?_
  refine lists_nil ?_
  unfold compositionRows
  repeat refine lists_eight ?_
  repeat refine lists_cons ?_
  exact lists_nil (by decide +kernel)

theorem isClosed_tables : isClosed replacements compositions = true := by
  obtain ⟨rows, hrows, ts, hts, hclosed⟩ := lists_tables
  rw [replacements_eq hrows, compositions_eq hts]
  exact hclosed

end PodCache.Url.Domain
