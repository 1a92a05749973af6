import Mathlib.Tactic
import PodCache.Local.FrequencyCache

/-!
# Sizes that fit together

The capacities of a frequency cache are shares computed in binary floating point.  Rounding at most
doubles a value (`Binary64.units_nearest_mul_le`), and that is enough: the window takes at most the
whole bound, so that window and main segment share it exactly (`window_add_mainSegment`), and the
protected part is smaller than the main segment unless both are empty (`protection_lt_or`).

The other sizes are computed in words.  For every configuration that a cache accepts they have the
values that are meant, but when `2 ^ 58` writes or more may wait, the room for reads is no word and
there is no cache at all: the program panics (`FrequencyCache.dimensions_of_new`).
-/

namespace PodCache

theorem roundHalfEven_mul_le (num den : Nat) : roundHalfEven num den * den ≤ 2 * num := by
  have hdiv := Nat.div_add_mod num den
  have hcomm : den * (num / den) = num / den * den := Nat.mul_comm _ _
  unfold roundHalfEven
  dsimp only
  split_ifs with hdown
  · omega
  · have hup : den ≤ 2 * (num % den) := by omega
    rw [Nat.succ_mul]
    omega

namespace Binary64

theorem units_nearest (num den : Nat) :
    (nearest num den).units =
      roundHalfEven num (den * 2 ^ (Nat.log2 (num / den) - 52)) *
        2 ^ (Nat.log2 (num / den) - 52) := by
  unfold nearest
  dsimp only
  split_ifs with hcarry
  · change leadingBit * 2 ^ (_ + 1) = roundHalfEven num (den * 2 ^ _) * 2 ^ _
    change roundHalfEven num (den * 2 ^ _) = 2 * leadingBit at hcarry
    rw [hcarry, pow_succ]
    ring
  · rfl

theorem units_nearest_mul_le (num den : Nat) : (nearest num den).units * den ≤ 2 * num := by
  have hle := roundHalfEven_mul_le num (den * 2 ^ (Nat.log2 (num / den) - 52))
  calc (nearest num den).units * den
    _ = roundHalfEven num (den * 2 ^ (Nat.log2 (num / den) - 52)) *
          (den * 2 ^ (Nat.log2 (num / den) - 52)) := by
      rw [units_nearest]
      ring
    _ ≤ 2 * num := hle

theorem units_ofRatio_mul_le (num den : Nat) :
    (ofRatio num den).units * den ≤ 2 * (num * unitsPerOne) :=
  units_nearest_mul_le _ _

theorem units_ofNat_le (n : Nat) : (ofNat n).units ≤ 2 * (n * unitsPerOne) := by
  have h := units_ofRatio_mul_le n 1
  rwa [Nat.mul_one] at h

theorem units_mul_mul_le (x y : Binary64) :
    (x.mul y).units * unitsPerOne ≤ 2 * (x.units * y.units) :=
  units_nearest_mul_le _ _

theorem unitsPerOne_pos : 0 < unitsPerOne := by
  unfold unitsPerOne
  generalize 1074 = k
  exact Nat.two_pow_pos k

theorem round_le_of_units_le {x : Binary64} {n : Nat} (h : x.units ≤ n * unitsPerOne) :
    x.round ≤ n := by
  have hpos := unitsPerOne_pos
  unfold round roundHalfUp
  apply Nat.le_of_lt_succ
  rw [Nat.div_lt_iff_lt_mul (by omega)]
  calc 2 * x.units + unitsPerOne
    _ < 2 * (n * unitsPerOne) + 2 * unitsPerOne := by omega
    _ = (n + 1) * (2 * unitsPerOne) := by ring

end Binary64

namespace Sizing

open Binary64 (unitsPerOne)

theorem toNat_saturate (n : Nat) : (saturate n).toNat = min n (2 ^ 64 - 1) := by
  have hlt : min n maxWord < 2 ^ 64 := (Nat.min_le_right _ _).trans_lt (by decide)
  rw [saturate, UInt64.toNat_ofNat', Nat.mod_eq_of_lt hlt]
  rfl

theorem toNat_saturatingSub (a b : UInt64) : (saturatingSub a b).toNat = a.toNat - b.toNat := by
  unfold saturatingSub
  split_ifs with h
  · exact UInt64.toNat_sub_of_le _ _ h
  · rw [UInt64.le_iff_toNat_le] at h
    exact (Nat.sub_eq_zero_of_le (Nat.le_of_not_le h)).symm

theorem toNat_max_one (n : UInt64) : (max n 1).toNat = max 1 n.toNat := by
  rw [UInt64.toNat_max, Nat.max_comm]
  rfl

/-! ### Shares -/

theorem units_windowShare_le : windowShare.units * 100 ≤ 2 * unitsPerOne := by
  have h := Binary64.units_ofRatio_mul_le 1 100
  rwa [Nat.one_mul, ← windowShare] at h

theorem units_share_le (n : Nat) :
    ((Binary64.ofNat n).mul windowShare).units ≤ n * unitsPerOne := by
  have hpos := Binary64.unitsPerOne_pos
  have hmul := Binary64.units_mul_mul_le (.ofNat n) windowShare
  have hprod := Nat.mul_le_mul (Binary64.units_ofNat_le n) units_windowShare_le
  have hle : ((Binary64.ofNat n).mul windowShare).units * unitsPerOne * 100 ≤
      n * unitsPerOne * unitsPerOne * 100 := by
    calc ((Binary64.ofNat n).mul windowShare).units * unitsPerOne * 100
      _ ≤ 2 * ((Binary64.ofNat n).units * windowShare.units) * 100 := Nat.mul_le_mul_right _ hmul
      _ = 2 * ((Binary64.ofNat n).units * (windowShare.units * 100)) := by ring
      _ ≤ 2 * (2 * (n * unitsPerOne) * (2 * unitsPerOne)) := Nat.mul_le_mul_left _ hprod
      _ = 8 * (n * unitsPerOne * unitsPerOne) := by ring
      _ ≤ n * unitsPerOne * unitsPerOne * 100 := by omega
  exact Nat.le_of_mul_le_mul_right (Nat.le_of_mul_le_mul_right hle (by decide)) hpos

theorem share_windowShare_le (capacity : UInt64) :
    (share capacity windowShare).toNat ≤ capacity.toNat := by
  calc (share capacity windowShare).toNat
    _ ≤ ((Binary64.ofNat capacity.toNat).mul windowShare).round :=
      (toNat_saturate _).trans_le (Nat.min_le_left _ _)
    _ ≤ capacity.toNat := Binary64.round_le_of_units_le (units_share_le _)

theorem window_le (maxCost : UInt64) : (window maxCost).toNat ≤ maxCost.toNat := by
  unfold window
  split_ifs with hzero
  · exact Nat.zero_le _
  · have hpos : maxCost.toNat ≠ 0 := fun h => hzero (UInt64.toNat_inj.1 h)
    have hshare := share_windowShare_le maxCost
    rw [toNat_max_one]
    omega

theorem one_le_window {maxCost : UInt64} (h : maxCost ≠ 0) : 1 ≤ (window maxCost).toNat := by
  unfold window
  rw [if_neg h, toNat_max_one]
  exact Nat.le_max_left _ _

/-- The window and the main segment share the bound. -/
theorem window_add_mainSegment (maxCost : UInt64) :
    (window maxCost).toNat + (mainSegment maxCost).toNat = maxCost.toNat := by
  have hle := window_le maxCost
  rw [mainSegment, toNat_saturatingSub]
  omega

/-- Probation has room for something unless the main segment has none. -/
theorem protection_lt_or (maxCost : UInt64) :
    (protection maxCost).toNat < (mainSegment maxCost).toNat ∨
      (protection maxCost).toNat = 0 ∧ (mainSegment maxCost).toNat = 0 := by
  unfold protection
  dsimp only
  split_ifs with hzero
  · rw [hzero]
    exact .inr ⟨rfl, rfl⟩
  · have hpos : (mainSegment maxCost).toNat ≠ 0 := fun h => hzero (UInt64.toNat_inj.1 h)
    rw [toNat_saturatingSub, toNat_max_one]
    omega

theorem protection_le_mainSegment (maxCost : UInt64) :
    (protection maxCost).toNat ≤ (mainSegment maxCost).toNat := by
  have hor := protection_lt_or maxCost
  omega

/-! ### Counters -/

theorem toNat_sample (numCounters : UInt64) :
    (sample numCounters).toNat = min (10 * max 100 numCounters.toNat) (2 ^ 64 - 1) := by
  rw [sample, toNat_saturate, UInt64.toNat_max, Nat.mul_comm, Nat.max_comm]
  rfl

theorem rowWidth_eq (numCounters : UInt64) :
    rowWidth numCounters = leastPowerOfTwo (max 64 (numCounters.toNat / 4)) := by
  rw [rowWidth, UInt64.toNat_max, UInt64.toNat_div, Nat.max_comm]
  rfl

theorem isLeast_rowWidth (numCounters : UInt64) :
    IsLeast {w | (∃ k, w = 2 ^ k) ∧ max 64 (numCounters.toNat / 4) ≤ w} (rowWidth numCounters) := by
  rw [rowWidth_eq]
  refine ⟨⟨exists_leastPowerOfTwo_eq _, le_leastPowerOfTwo _⟩, ?_⟩
  rintro w ⟨⟨k, rfl⟩, hle⟩
  exact leastPowerOfTwo_le hle

/-- Even the greatest width is a word. -/
theorem rowWidth_le (numCounters : UInt64) : rowWidth numCounters ≤ 2 ^ 62 := by
  have hword := numCounters.toNat_lt
  have hle : max 64 (numCounters.toNat / 4) ≤ 2 ^ 62 := by omega
  exact (isLeast_rowWidth numCounters).2 ⟨⟨62, rfl⟩, hle⟩

/-! ### Room for reads -/

theorem toNat_stripe (capacity : UInt64) :
    (stripe capacity).toNat = max 8 (capacity.toNat / 16) := by
  rw [stripe, UInt64.toNat_max, UInt64.toNat_div, Nat.max_comm]
  rfl

theorem readCapacity?_eq_none_iff (bufferItems : UInt64) :
    readCapacity? bufferItems = none ↔ 2 ^ 58 ≤ bufferItems.toNat := by
  have hmax := toNat_max_one bufferItems
  have hsize : UInt64.size = 2 ^ 64 := rfl
  unfold readCapacity?
  split_ifs with hfits
  · simp only [false_iff]
    omega
  · simp only [true_iff]
    omega

/-- A stripe has room for four keys for each write that may wait. -/
theorem toNat_stripe_readCapacity? {bufferItems capacity : UInt64}
    (h : readCapacity? bufferItems = some capacity) :
    (stripe capacity).toNat = max 8 (4 * max 1 bufferItems.toNat) := by
  unfold readCapacity? at h
  split_ifs at h with hfits
  obtain rfl := Option.some.inj h
  have hmul : (max bufferItems 1 * 64).toNat = (max bufferItems 1).toNat * 64 := by
    rw [UInt64.toNat_mul]
    exact Nat.mod_eq_of_lt hfits
  rw [toNat_stripe, hmul, toNat_max_one]
  omega

end Sizing

namespace FrequencyCache

variable {V : Type} {c : FrequencyCache V}

/-- The sizes of the parts of a frequency cache with a configuration. -/
structure Dimensions (c : FrequencyCache V) (config : LocalConfig) : Prop where
  maxCost_eq : c.maxCost = config.maxCost.toNat
  bufferItems_eq : c.bufferItems = max 1 config.bufferItems.toNat
  /-- A stripe of the read buffer has room for four keys for each write that may wait. -/
  stripe_eq : c.reads.stripeCapacity = max 8 (4 * max 1 config.bufferItems.toNat)
  width_least : IsLeast {w | (∃ k, w = 2 ^ k) ∧ max 64 (config.numCounters.toNat / 4) ≤ w}
    c.policy.sketch.width
  width_le : c.policy.sketch.width ≤ 2 ^ 62
  size_eq : c.policy.sketch.counters.size = 4 * c.policy.sketch.width
  sample_eq : c.policy.sketch.sample = min (10 * max 100 config.numCounters.toNat) (2 ^ 64 - 1)
  window_pos : 1 ≤ c.policy.windowCapacity
  /-- The window and the main segment share the bound. -/
  shared : c.policy.windowCapacity + c.policy.mainCapacity = config.maxCost.toNat
  part : c.policy.protectionCapacity < c.policy.mainCapacity ∨
    c.policy.protectionCapacity = 0 ∧ c.policy.mainCapacity = 0

/-- What comes of a configuration. -/
theorem new_cases (chance : Chance) (config : LocalConfig)
    (h : config.numCounters ≠ 0 ∧ config.maxCost ≠ 0) :
    (∃ c : FrequencyCache V, new chance config = .ok c) ∧ config.bufferItems.toNat < 2 ^ 58 ∨
      new (V := V) chance config = .error .panicked ∧ 2 ^ 58 ≤ config.bufferItems.toNat := by
  have hnone := Sizing.readCapacity?_eq_none_iff config.bufferItems
  unfold new
  rw [if_neg h.1, if_neg h.2]
  cases hr : Sizing.readCapacity? config.bufferItems with
  | none => exact .inr ⟨rfl, hnone.1 hr⟩
  | some capacity =>
    rw [hr] at hnone
    exact .inl ⟨⟨_, rfl⟩, Nat.lt_of_not_le fun hle => nomatch hnone.2 hle⟩

theorem ne_zero_of_new {chance : Chance} {config : LocalConfig}
    (h : (∃ c : FrequencyCache V, new chance config = .ok c) ∨
      new (V := V) chance config = .error .panicked) :
    config.numCounters ≠ 0 ∧ config.maxCost ≠ 0 := by
  unfold new at h
  split_ifs at h with hcounters hcost
  · simp at h
  · simp at h
  · exact ⟨hcounters, hcost⟩

theorem dimensions_of_eq_ok {chance : Chance} {config : LocalConfig}
    (h : new chance config = .ok c) : c.Dimensions config := by
  obtain ⟨-, hcost, capacity, hr, rfl⟩ := exists_eq_empty_of_new h
  exact {
    maxCost_eq := rfl
    bufferItems_eq := Sizing.toNat_max_one config.bufferItems
    stripe_eq := Sizing.toNat_stripe_readCapacity? hr
    width_least := Sizing.isLeast_rowWidth config.numCounters
    width_le := Sizing.rowWidth_le config.numCounters
    size_eq := Array.size_replicate
    sample_eq := by
      change max (Sizing.sample config.numCounters).toNat 1 = _
      rw [Sizing.toNat_sample]
      omega
    window_pos := Sizing.one_le_window hcost
    shared := Sizing.window_add_mainSegment config.maxCost
    part := Sizing.protection_lt_or config.maxCost }

/-- A configuration with counters and a positive bound is accepted exactly if fewer than `2 ^ 58`
writes may wait, and then all sizes have the values that are meant.  With more of them the program
panics. -/
theorem dimensions_of_new (chance : Chance) (config : LocalConfig) :
    ((∃ c : FrequencyCache V, new chance config = .ok c) ↔
      config.numCounters ≠ 0 ∧ config.maxCost ≠ 0 ∧ config.bufferItems.toNat < 2 ^ 58) ∧
    (new (V := V) chance config = .error .panicked ↔
      config.numCounters ≠ 0 ∧ config.maxCost ≠ 0 ∧ 2 ^ 58 ≤ config.bufferItems.toNat) ∧
    ∀ c : FrequencyCache V, new chance config = .ok c → c.Dimensions config := by
  refine ⟨⟨fun ⟨c, hc⟩ => ?_, fun ⟨hcounters, hcost, hlt⟩ => ?_⟩,
    ⟨fun hp => ?_, fun ⟨hcounters, hcost, hle⟩ => ?_⟩, fun c => dimensions_of_eq_ok⟩
  · have hne := ne_zero_of_new (.inl ⟨c, hc⟩)
    rcases new_cases (V := V) chance config hne with ⟨-, hlt⟩ | ⟨hp, -⟩
    · exact ⟨hne.1, hne.2, hlt⟩
    · cases hc.symm.trans hp
  · rcases new_cases (V := V) chance config ⟨hcounters, hcost⟩ with ⟨hok, -⟩ | ⟨-, hle⟩
    · exact hok
    · exact absurd hlt (Nat.not_lt.2 hle)
  · have hne := ne_zero_of_new (.inr hp)
    rcases new_cases (V := V) chance config hne with ⟨⟨c, hc⟩, -⟩ | ⟨-, hle⟩
    · cases hc.symm.trans hp
    · exact ⟨hne.1, hne.2, hle⟩
  · rcases new_cases (V := V) chance config ⟨hcounters, hcost⟩ with ⟨-, hlt⟩ | ⟨hp, -⟩
    · exact absurd hlt (Nat.not_lt.2 hle)
    · exact hp

/-- The greatest sizes that are accepted. -/
def greatest : LocalConfig :=
  { numCounters := 0xffffffffffffffff
    maxCost := 0xffffffffffffffff
    bufferItems := 0x3ffffffffffffff }

theorem dimensions_of_new_of_greatest :
    ∃ c : FrequencyCache Nat, new Chance.standard greatest = .ok c ∧ c.Dimensions greatest ∧
      c.reads.stripeCapacity = 2 ^ 60 - 4 ∧ c.policy.sketch.width = 2 ^ 62 ∧
      c.policy.sketch.sample = 2 ^ 64 - 1 := by
  obtain ⟨haccepted, -, hdimensions⟩ := dimensions_of_new (V := Nat) Chance.standard greatest
  obtain ⟨c, hc⟩ := haccepted.2 ⟨by decide, by decide, by decide⟩
  have hd := hdimensions c hc
  have hwidth : IsLeast {w | (∃ k, w = 2 ^ k) ∧ 2 ^ 62 - 1 ≤ w} c.policy.sketch.width :=
    hd.width_least
  refine ⟨c, hc, hd, hd.stripe_eq, le_antisymm hd.width_le ?_, hd.sample_eq⟩
  obtain ⟨⟨k, hk⟩, hle⟩ := hwidth.1
  rw [hk] at hle ⊢
  have hlt : 2 ^ 61 < 2 ^ k := Nat.lt_of_lt_of_le (by decide) hle
  have hexp : 61 < k := (Nat.pow_lt_pow_iff_right (by decide)).1 hlt
  exact Nat.pow_le_pow_right (by decide) hexp

/-- With one more write that may wait the room for reads is no word any more. -/
theorem panics_past_greatest :
    new (V := Nat) Chance.standard { greatest with bufferItems := 0x400000000000000 } =
      .error .panicked :=
  rfl

end FrequencyCache

end PodCache
