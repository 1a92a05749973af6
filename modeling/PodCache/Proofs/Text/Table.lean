import Mathlib.Tactic
import PodCache.Text.Table

/-!
# Evaluating tables

What is said of a whole table is checked by evaluation.  A row is evaluated as a list of characters
(`Lists`), and a set of code points as the bits of one number (`mask`, `rangeMask`), so that a
membership costs one step.
-/

namespace PodCache.Text

variable {n : Nat} {c : Char} {cs : List Char} {rows : List String}
  {P : List (List Char) → Prop}

/-! ## Rows -/

/-- The rows are the texts of lists of which `P` holds. -/
def Lists (rows : List String) (P : List (List Char) → Prop) : Prop :=
  ∃ lists : List (List Char), rows = lists.map String.ofList ∧ P lists

theorem lists_nil (h : P []) : Lists [] P := ⟨[], rfl, h⟩

theorem lists_cons (h : Lists rows fun lists => P (cs :: lists)) :
    Lists (String.ofList cs :: rows) P := by
  obtain ⟨lists, rfl, h⟩ := h
  exact ⟨cs :: lists, rfl, h⟩

theorem lists_eight {a b c d e f g h : List Char}
    (hl : Lists rows fun l => P (a :: b :: c :: d :: e :: f :: g :: h :: l)) :
    Lists (String.ofList a :: String.ofList b :: String.ofList c :: String.ofList d ::
      String.ofList e :: String.ofList f :: String.ofList g :: String.ofList h :: rows) P := by
  obtain ⟨l, rfl, hl⟩ := hl
  exact ⟨_, rfl, hl⟩

/-- The words of a row that is given as a list. -/
def words (row : List Char) : List (List Char) := (splitAll (· == ' ') row).map readWord

theorem readRow_ofList (row : List Char) : readRow (String.ofList row) = words row := by
  rw [readRow, String.toList_ofList, words]

theorem map_readRow {lists : List (List Char)} (h : rows = lists.map String.ofList) :
    rows.map readRow = lists.map words := by
  rw [h, List.map_map]
  exact List.map_congr_left fun row _ => readRow_ofList row

/-! ## Sets of numbers -/

/-- A number with the bits at the given places. -/
def mask (ns : List Nat) : Nat := ns.foldl (fun m n => m ||| 2 ^ n) 0

theorem testBit_foldl_or {α : Type} (f : α → Nat) (as : List α) (m : Nat) :
    (as.foldl (fun m a => m ||| f a) m).testBit n =
      (m.testBit n || as.any fun a => (f a).testBit n) := by
  induction as generalizing m with
  | nil => simp
  | cons a as ih => rw [List.foldl_cons, ih, Nat.testBit_or, List.any_cons, Bool.or_assoc]

theorem testBit_mask {ns : List Nat} : (mask ns).testBit n = true ↔ n ∈ ns := by
  rw [mask, testBit_foldl_or (2 ^ ·)]
  simp [Nat.testBit_two_pow]

/-- A number with the bits at the places in the given inclusive ranges. -/
def rangeMask (ranges : List (Nat × Nat)) : Nat :=
  ranges.foldl (fun m r => m ||| (2 ^ (r.2 + 1 - r.1) - 1) <<< r.1) 0

theorem testBit_rangeMask (ranges : List (Nat × Nat)) (c : Char) :
    (rangeMask ranges).testBit c.toNat = inRanges ranges c := by
  rw [rangeMask, testBit_foldl_or fun r : Nat × Nat => (2 ^ (r.2 + 1 - r.1) - 1) <<< r.1,
    Nat.zero_testBit, Bool.false_or, inRanges]
  congr 1
  funext r
  rw [Nat.testBit_shiftLeft, Nat.testBit_two_pow_sub_one, Bool.eq_iff_iff]
  simp only [Bool.and_eq_true, decide_eq_true_eq]
  omega

/-- Whether the numbers are distinct and none is among the bits of `m`. -/
def distinct : List Nat → Nat → Bool
  | [], _ => true
  | n :: ns, m => !m.testBit n && distinct ns (m ||| 2 ^ n)

theorem distinct_iff {ns : List Nat} {m : Nat} :
    distinct ns m = true ↔ ns.Nodup ∧ ∀ n ∈ ns, m.testBit n = false := by
  induction ns generalizing m with
  | nil => simp [distinct]
  | cons n ns ih =>
    rw [distinct, Bool.and_eq_true, ih, List.nodup_cons, List.forall_mem_cons]
    simp only [Nat.testBit_or, Nat.testBit_two_pow, Bool.or_eq_false_iff, Bool.not_eq_true',
      decide_eq_false_iff_not]
    constructor
    · rintro ⟨hn, hnodup, hns⟩
      exact ⟨⟨fun hmem => (hns n hmem).2 rfl, hnodup⟩, hn, fun k hk => (hns k hk).1⟩
    · rintro ⟨⟨hmem, hnodup⟩, hn, hns⟩
      exact ⟨hn, hnodup, fun k hk => ⟨hns k hk, fun heq => hmem (heq ▸ hk)⟩⟩

end PodCache.Text
