/-!
# Words

Costs, capacities and sizes are words of 64 bits.  The sum of two words is taken modulo `2 ^ 64`;
whether it is exact is told by `Word.overflows`.  Tables and rings have a power of two as their
size.
-/

namespace PodCache

/-! ## Sums -/

namespace Word

/-- The sum of two words. -/
def add (a b : Nat) : Nat := (a + b) % UInt64.size

/-- Whether the exact sum of two words is not a word. -/
def overflows (a b : Nat) : Bool := decide (UInt64.size ≤ a + b)

variable {a b : Nat}

theorem add_lt (a b : Nat) : add a b < UInt64.size := Nat.mod_lt _ (by decide)

theorem add_le (a b : Nat) : add a b ≤ a + b := Nat.mod_le _ _

theorem add_eq (h : a + b < UInt64.size) : add a b = a + b := Nat.mod_eq_of_lt h

theorem overflows_eq_false_iff : overflows a b = false ↔ a + b < UInt64.size := by
  rw [overflows, decide_eq_false_iff_not, Nat.not_le]

end Word

/-! ## Powers of two -/

/-- The least power of two that is at least `n`. -/
def leastPowerOfTwo (n : Nat) : Nat := if n ≤ 1 then 1 else Nat.pow 2 (Nat.log2 (n - 1) + 1)

/-- The bound is kept. -/
theorem le_leastPowerOfTwo (n : Nat) : n ≤ leastPowerOfTwo n := by
  unfold leastPowerOfTwo
  split
  · assumption
  · have h : n - 1 < Nat.pow 2 (Nat.log2 (n - 1) + 1) := Nat.lt_log2_self
    omega

/-- No smaller power of two keeps the bound. -/
theorem leastPowerOfTwo_le {n k : Nat} (h : n ≤ Nat.pow 2 k) :
    leastPowerOfTwo n ≤ Nat.pow 2 k := by
  unfold leastPowerOfTwo
  split
  · exact Nat.one_le_two_pow
  · have hlt : n - 1 < Nat.pow 2 k := by omega
    have hlog : Nat.log2 (n - 1) < k := (Nat.log2_lt (by omega)).2 hlt
    exact Nat.pow_le_pow_right (by decide) hlog

theorem exists_leastPowerOfTwo_eq (n : Nat) : ∃ k, leastPowerOfTwo n = Nat.pow 2 k := by
  unfold leastPowerOfTwo
  split
  · exact ⟨0, rfl⟩
  · exact ⟨_, rfl⟩

theorem leastPowerOfTwo_pos (n : Nat) : 0 < leastPowerOfTwo n := by
  unfold leastPowerOfTwo
  split
  · decide
  · exact Nat.two_pow_pos _

end PodCache
