import Mathlib.Tactic
import PodCache.Local.Sketch

/-!
# Estimates between two halvings

Counting uses never lowers a counter until the sample is full and all counters are halved.  So while
the sketch does not age, every estimate grows (`grown_incrementMany`, `Grown.estimate_le`).  When
every key has a counter in every row (`WellFormed`), the estimate of the key that is used grows by
as many as its uses, up to 255 (`estimate_incrementMany`).
-/

namespace PodCache.Sketch

variable {s s' : Sketch} {n : Nat}

/-- A sketch in which `n` more uses have been counted and no counter is lower. -/
structure Grown (s s' : Sketch) (n : Nat) : Prop where
  sample_eq : s'.sample = s.sample
  increments_eq : s'.increments = s.increments + n
  counter_le : ∀ row key, s.counter row key ≤ s'.counter row key

theorem Grown.refl (s : Sketch) : Grown s s 0 := ⟨rfl, rfl, fun _ _ => UInt8.le_refl _⟩

theorem Grown.trans {s'' : Sketch} {m : Nat} (h : Grown s s' n) (h' : Grown s' s'' m) :
    Grown s s'' (n + m) where
  sample_eq := h'.sample_eq.trans h.sample_eq
  increments_eq := by rw [h'.increments_eq, h.increments_eq, Nat.add_assoc]
  counter_le row key := UInt8.le_trans (h.counter_le row key) (h'.counter_le row key)

theorem Grown.estimate_le (h : Grown s s' n) (key : String) :
    s.estimate key ≤ s'.estimate key := by
  have hrow (row : Fin 4) : (s.counter row key).toNat ≤ (s'.counter row key).toNat :=
    UInt8.le_iff_toNat_le.1 (h.counter_le row key)
  rw [UInt8.le_iff_toNat_le]
  simp only [estimate, UInt8.toNat_min]
  exact min_le_min (min_le_min (hrow 0) (hrow 1)) (min_le_min (hrow 2) (hrow 3))

theorem toNat_bump (n : UInt8) : (bump n).toNat = min 255 (n.toNat + 1) := by
  have hle := n.toNat_lt
  have hmax : n = 255 ↔ n.toNat = 255 := by simp [← UInt8.toNat_inj]
  unfold bump
  split_ifs with h
  · simp [h]
  · have hne := mt hmax.2 h
    simp only [UInt8.toNat_add, UInt8.reduceToNat]
    omega

theorem le_bump (n : UInt8) : n ≤ bump n := by
  have hle := n.toNat_lt
  rw [UInt8.le_iff_toNat_le, toNat_bump]
  omega

theorem getD_le_modify (counters : Array UInt8) (i j : Nat) :
    counters.getD i 0 ≤ (counters.modify j bump).getD i 0 := by
  rw [Array.getD_eq_getD_getElem?, Array.getD_eq_getD_getElem?, Array.getElem?_modify]
  split_ifs with hij
  · cases counters[i]? with
    | none => exact UInt8.le_refl _
    | some n => exact le_bump n
  · exact UInt8.le_refl _

theorem grown_bumpRow (s : Sketch) (key : String) (row : Fin 4) : Grown s (bumpRow key s row) 0 :=
  ⟨rfl, rfl, fun _ _ => getD_le_modify _ _ _⟩

theorem grown_foldl_bumpRow (s : Sketch) (key : String) (rows : List (Fin 4)) :
    Grown s (rows.foldl (bumpRow key) s) 0 := by
  induction rows generalizing s with
  | nil => exact .refl s
  | cons row rows ih => exact (grown_bumpRow s key row).trans (ih _)

/-- The sketch when a use has been counted in every row and is still to be counted itself. -/
def bumpRows (s : Sketch) (key : String) : Sketch := (List.finRange 4).foldl (bumpRow key) s

theorem grown_bumpRows (s : Sketch) (key : String) : Grown s (s.bumpRows key) 0 :=
  grown_foldl_bumpRow s key (List.finRange 4)

/-- Either the use completes the sample and all counters are halved, or it is counted. -/
theorem increment_eq (s : Sketch) (key : String) :
    s.increment key =
      if s.sample ≤ s.increments + 1 then (s.bumpRows key).age
      else { s.bumpRows key with increments := s.increments + 1 } := by
  have hrows := s.grown_bumpRows key
  have hincrements : (s.bumpRows key).increments = s.increments := hrows.increments_eq
  rw [← hrows.sample_eq, ← hincrements, increment, ← bumpRows]
  generalize s.bumpRows key = counted
  rfl

theorem grown_increment (s : Sketch) (key : String) (h : s.increments + 1 < s.sample) :
    Grown s (s.increment key) 1 := by
  have hrows := s.grown_bumpRows key
  rw [increment_eq, if_neg (Nat.not_le_of_lt h)]
  generalize s.bumpRows key = counted at hrows ⊢
  exact ⟨hrows.sample_eq, rfl, hrows.counter_le⟩

/-- Counting uses that do not fill the sample. -/
theorem grown_incrementMany (s : Sketch) (key : String) (h : n = 0 ∨ s.increments + n < s.sample) :
    Grown s (s.incrementMany key n) n := by
  induction n generalizing s with
  | zero => exact .refl s
  | succ n ih =>
    have hlt : s.increments + (n + 1) < s.sample := h.resolve_left (Nat.succ_ne_zero n)
    have hone := grown_increment s key (by omega)
    have hmany := ih (s.increment key) (by
      rw [hone.sample_eq, hone.increments_eq]
      omega)
    have hboth := hone.trans hmany
    rwa [Nat.add_comm 1 n] at hboth

/-! ## Counters in their rows -/

/-- Every key has a counter in every row. -/
structure WellFormed (s : Sketch) : Prop where
  width_pos : 0 < s.width
  size_eq : s.counters.size = 4 * s.width

theorem wellFormed_new (hash : Fin 4 → String → UInt64) (numCounters sampleSize : UInt64) :
    (new hash numCounters sampleSize).WellFormed :=
  ⟨leastPowerOfTwo_pos _, Array.size_replicate⟩

theorem WellFormed.bumpRow (h : s.WellFormed) (key : String) (row : Fin 4) :
    (bumpRow key s row).WellFormed :=
  ⟨h.width_pos, Array.size_modify.trans h.size_eq⟩

theorem WellFormed.foldl_bumpRow (h : s.WellFormed) (key : String) (rows : List (Fin 4)) :
    (rows.foldl (Sketch.bumpRow key) s).WellFormed := by
  induction rows generalizing s with
  | nil => exact h
  | cons row rows ih => exact ih (h.bumpRow key row)

theorem WellFormed.bumpRows (h : s.WellFormed) (key : String) : (s.bumpRows key).WellFormed :=
  h.foldl_bumpRow key (List.finRange 4)

theorem WellFormed.age (h : s.WellFormed) : s.age.WellFormed :=
  ⟨h.width_pos, Array.size_map.trans h.size_eq⟩

theorem WellFormed.clear (h : s.WellFormed) : s.clear.WellFormed :=
  ⟨h.width_pos, Array.size_map.trans h.size_eq⟩

theorem WellFormed.increment (h : s.WellFormed) (key : String) : (s.increment key).WellFormed := by
  have hrows := h.bumpRows key
  rw [increment_eq]
  generalize s.bumpRows key = counted at hrows ⊢
  split_ifs
  · exact hrows.age
  · exact ⟨hrows.width_pos, hrows.size_eq⟩

theorem WellFormed.incrementMany (h : s.WellFormed) (key : String) (n : Nat) :
    (s.incrementMany key n).WellFormed := by
  induction n generalizing s with
  | zero => exact h
  | succ n ih => exact ih (h.increment key)

theorem WellFormed.slot_lt (h : s.WellFormed) (row : Fin 4) (key : String) :
    s.slot row key < s.width := Nat.mod_lt _ h.width_pos

theorem WellFormed.place_lt (h : s.WellFormed) (row : Fin 4) (key : String) :
    s.place row key < s.counters.size := by
  have hslot := h.slot_lt row key
  have hrow : row.val * s.width ≤ 3 * s.width := Nat.mul_le_mul_right _ (by omega)
  rw [h.size_eq, place]
  omega

/-- Rows do not overlap. -/
theorem WellFormed.place_eq_iff (h : s.WellFormed) {row i : Fin 4} {key k : String} :
    s.place row key = s.place i k ↔ row = i ∧ s.slot row key = s.slot i k := by
  have hrow (i : Fin 4) (k : String) : s.place i k / s.width = i.val := by
    rw [place, Nat.add_comm, Nat.add_mul_div_right _ _ h.width_pos,
      Nat.div_eq_of_lt (h.slot_lt i k), Nat.zero_add]
  constructor
  · intro heq
    obtain rfl : row = i := by
      apply Fin.ext
      rw [← hrow row key, ← hrow i k, heq]
    exact ⟨rfl, Nat.add_left_cancel heq⟩
  · rintro ⟨rfl, hslot⟩
    exact congrArg (row.val * s.width + ·) hslot

/-- Counting a key in a row raises the counter of each key that shares its place. -/
theorem counter_bumpRow (h : s.WellFormed) (key k : String) (row i : Fin 4) :
    (bumpRow key s row).counter i k =
      if row = i ∧ s.slot row key = s.slot i k then bump (s.counter i k) else s.counter i k := by
  simp only [← h.place_eq_iff]
  change (s.counters.modify (s.place row key) bump).getD (s.place i k) 0 =
    if s.place row key = s.place i k then bump (s.counters.getD (s.place i k) 0)
    else s.counters.getD (s.place i k) 0
  rw [Array.getD_eq_getD_getElem?, Array.getD_eq_getD_getElem?, Array.getElem?_modify,
    Array.getElem?_eq_getElem (h.place_lt i k)]
  split_ifs <;> rfl

theorem counter_foldl_bumpRow (h : s.WellFormed) (key k : String) (i : Fin 4)
    {rows : List (Fin 4)} (hn : rows.Nodup) :
    (rows.foldl (bumpRow key) s).counter i k =
      if i ∈ rows ∧ s.slot i key = s.slot i k then bump (s.counter i k) else s.counter i k := by
  induction rows generalizing s with
  | nil => simp
  | cons row rows ih =>
    obtain ⟨hrow, hn⟩ := List.nodup_cons.1 hn
    have hslot (i : Fin 4) (k : String) : (bumpRow key s row).slot i k = s.slot i k := rfl
    rw [List.foldl_cons, ih (h.bumpRow key row) hn, counter_bumpRow h, hslot, hslot]
    by_cases hi : row = i
    · subst hi
      simp [hrow]
    · simp [hi, Ne.symm hi]

/-- Counting a key in every row raises the counters that it shares. -/
theorem counter_bumpRows (h : s.WellFormed) (key k : String) (i : Fin 4) :
    (s.bumpRows key).counter i k =
      if s.slot i key = s.slot i k then bump (s.counter i k) else s.counter i k := by
  have hrows := counter_foldl_bumpRow h key k i (List.nodup_finRange 4)
  rw [bumpRows, hrows]
  simp

theorem counter_increment (h : s.WellFormed) (hyoung : s.increments + 1 < s.sample)
    (key k : String) (i : Fin 4) :
    (s.increment key).counter i k =
      if s.slot i key = s.slot i k then bump (s.counter i k) else s.counter i k := by
  rw [increment_eq, if_neg (Nat.not_le_of_lt hyoung), ← counter_bumpRows h]
  generalize s.bumpRows key = counted
  rfl

theorem estimate_increment (h : s.WellFormed) (hyoung : s.increments + 1 < s.sample)
    (key : String) :
    ((s.increment key).estimate key).toNat = min 255 ((s.estimate key).toNat + 1) := by
  have hrow (i : Fin 4) : ((s.increment key).counter i key).toNat =
      min 255 ((s.counter i key).toNat + 1) := by
    rw [counter_increment h hyoung, if_pos rfl, toNat_bump]
  have hmin (a b : Nat) :
      min (min 255 (a + 1)) (min 255 (b + 1)) = min 255 (min a b + 1) := by omega
  simp only [estimate, UInt8.toNat_min, hrow, hmin]

/-- Uses that do not fill the sample are counted one by one. -/
theorem estimate_incrementMany (h : s.WellFormed) (key : String)
    (hyoung : n = 0 ∨ s.increments + n < s.sample) :
    ((s.incrementMany key n).estimate key).toNat = min 255 ((s.estimate key).toNat + n) := by
  induction n generalizing s with
  | zero =>
    have hlt := (s.estimate key).toNat_lt
    change (s.estimate key).toNat = min 255 ((s.estimate key).toNat + 0)
    omega
  | succ n ih =>
    have hlt : s.increments + (n + 1) < s.sample := hyoung.resolve_left (Nat.succ_ne_zero n)
    have hone := grown_increment s key (by omega)
    have hmany := ih (h.increment key) (by
      rw [hone.sample_eq, hone.increments_eq]
      omega)
    rw [estimate_increment h (by omega)] at hmany
    change ((s.increment key).incrementMany key n |>.estimate key).toNat = _
    omega

end PodCache.Sketch
