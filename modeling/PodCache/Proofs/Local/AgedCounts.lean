import PodCache.Proofs.Local.Sketch

/-!
# Aged counts

A sketch cannot tell keys apart that share a counter.  So a counter is the exact count of the uses
of all keys that share it, up to 255 and halved whenever the sample is full (`shows_run`).  Such a
count grows with the set of keys that it counts (`Tally.Le`), and it depends on no more than which
of the keys used since the last clear are in that set (`tally_congr`).  Hence an estimate is never
less than the exact count of its key alone, and it is that count if the key has its counter to
itself in some row (`estimate_of_run`).
-/

namespace PodCache.Sketch

/-- What a sketch may be told. -/
inductive Request where
  | increment (key : String)
  | clear
  deriving DecidableEq

/-- The sketch after a request. -/
def serve (s : Sketch) : Request → Sketch
  | .increment key => s.increment key
  | .clear => s.clear

/-- The sketch after a sequence of requests. -/
def run (s : Sketch) (requests : List Request) : Sketch := requests.foldl serve s

/-! ## Exact counts -/

/-- The uses of some keys, and those of all keys since the last halving. -/
structure Tally where
  count : Nat
  increments : Nat
  deriving DecidableEq

/-- A count after a use, which may be one of those that are counted. -/
def raise (counts : Bool) (count : Nat) : Nat := if counts then min 255 (count + 1) else count

/-- A tally after a request.  When the uses of all keys fill the sample, the count is halved. -/
def Tally.serve (sample : Nat) (counts : String → Bool) (t : Tally) : Request → Tally
  | .increment key =>
    if sample ≤ t.increments + 1 then ⟨raise (counts key) t.count / 2, 0⟩
    else ⟨raise (counts key) t.count, t.increments + 1⟩
  | .clear => ⟨0, 0⟩

/-- The tally of a sequence of requests. -/
def tally (sample : Nat) (counts : String → Bool) (requests : List Request) : Tally :=
  requests.foldl (Tally.serve sample counts) ⟨0, 0⟩

/-- The aged count of one key alone. -/
def agedCount (sample : Nat) (key : String) (requests : List Request) : Nat :=
  (tally sample (fun k => k = key) requests).count

/-- The keys used since the last clear, the last one first. -/
def usedSinceClear (requests : List Request) : List String :=
  requests.foldl (fun keys r => match r with | .increment key => key :: keys | .clear => []) []

variable {s : Sketch} {sample : Nat} {counts counts' : String → Bool} {t t' : Tally}
  {row : Fin 4} {key : String}

theorem run_append_singleton (s : Sketch) (rs : List Request) (r : Request) :
    s.run (rs ++ [r]) = (s.run rs).serve r := by
  simp [run]

theorem tally_append_singleton (sample : Nat) (counts : String → Bool) (rs : List Request)
    (r : Request) :
    tally sample counts (rs ++ [r]) = (tally sample counts rs).serve sample counts r := by
  simp [tally]

theorem usedSinceClear_append_increment (rs : List Request) (key : String) :
    usedSinceClear (rs ++ [.increment key]) = key :: usedSinceClear rs := by
  simp [usedSinceClear]

/-- One tally is at most another one, over the same uses. -/
structure Tally.Le (t t' : Tally) : Prop where
  count_le : t.count ≤ t'.count
  small : t.count ≤ 255
  increments_eq : t.increments = t'.increments

theorem raise_le {a b : Bool} {n m : Nat} (hab : a = true → b = true) (hn : n ≤ 255)
    (hle : n ≤ m) : raise a n ≤ raise b m := by
  unfold raise
  split_ifs with ha hb hb
  · omega
  · exact absurd (hab ha) hb
  · omega
  · exact hle

theorem raise_small {n : Nat} (a : Bool) (hn : n ≤ 255) : raise a n ≤ 255 := by
  unfold raise
  split_ifs <;> omega

theorem Tally.Le.serve (h : t.Le t') (hsub : ∀ k, counts k = true → counts' k = true)
    (r : Request) : (t.serve sample counts r).Le (t'.serve sample counts' r) := by
  cases r with
  | clear => exact ⟨le_rfl, Nat.zero_le _, rfl⟩
  | increment key =>
    have hle := raise_le (hsub key) h.small h.count_le
    have hsmall := raise_small (counts key) h.small
    simp only [Tally.serve, h.increments_eq]
    split_ifs
    · exact ⟨Nat.div_le_div_right hle, (Nat.div_le_self _ _).trans hsmall, rfl⟩
    · exact ⟨hle, hsmall, rfl⟩

/-- Who counts more keys counts at least as many uses. -/
theorem tally_le (hsub : ∀ k, counts k = true → counts' k = true) (rs : List Request) :
    (tally sample counts rs).Le (tally sample counts' rs) := by
  induction rs using List.reverseRecOn with
  | nil => exact ⟨le_rfl, Nat.zero_le _, rfl⟩
  | append_singleton rs r ih =>
    rw [tally_append_singleton, tally_append_singleton]
    exact ih.serve hsub r

/-- Which keys are counted only matters for those used since the last clear. -/
theorem tally_congr {rs : List Request} (h : ∀ k ∈ usedSinceClear rs, counts k = counts' k) :
    tally sample counts rs = tally sample counts' rs := by
  induction rs using List.reverseRecOn with
  | nil => rfl
  | append_singleton rs r ih =>
    rw [tally_append_singleton, tally_append_singleton]
    cases r with
    | clear => rfl
    | increment key =>
      rw [usedSinceClear_append_increment] at h
      have hkey : counts key = counts' key := h key List.mem_cons_self
      have hrest := ih fun k hk => h k (List.mem_cons_of_mem key hk)
      simp only [Tally.serve, hkey, hrest]

theorem increments_tally_lt (hpos : 0 < sample) (rs : List Request) :
    (tally sample counts rs).increments < sample := by
  induction rs using List.reverseRecOn with
  | nil => exact hpos
  | append_singleton rs r ih =>
    rw [tally_append_singleton]
    cases r with
    | clear => exact hpos
    | increment key =>
      simp only [Tally.serve]
      split_ifs with hfull
      · exact hpos
      · exact Nat.lt_of_not_le hfull

/-! ## What a request leaves alone -/

theorem bumpRows_frame (s : Sketch) (key : String) :
    ∃ counters, s.bumpRows key = { s with counters } := by
  unfold bumpRows
  generalize List.finRange 4 = rows
  induction rows generalizing s with
  | nil => exact ⟨s.counters, rfl⟩
  | cons row rows ih =>
    obtain ⟨counters, heq⟩ := ih (bumpRow key s row)
    exact ⟨counters, heq⟩

theorem serve_frame (s : Sketch) (r : Request) :
    ∃ counters increments, s.serve r = { s with counters, increments } := by
  cases r with
  | clear => exact ⟨_, _, rfl⟩
  | increment key =>
    obtain ⟨counters, heq⟩ := s.bumpRows_frame key
    rw [serve, increment_eq, heq]
    split_ifs <;> exact ⟨_, _, rfl⟩

/-- Only the counters and the uses since the last halving change in a run. -/
theorem run_frame (s : Sketch) (rs : List Request) :
    ∃ counters increments, s.run rs = { s with counters, increments } := by
  induction rs using List.reverseRecOn with
  | nil => exact ⟨_, _, rfl⟩
  | append_singleton rs r ih =>
    obtain ⟨_, _, hrun⟩ := ih
    obtain ⟨counters, increments, hserve⟩ := (s.run rs).serve_frame r
    rw [run_append_singleton, hserve, hrun]
    exact ⟨counters, increments, rfl⟩

theorem slot_run (s : Sketch) (rs : List Request) (row : Fin 4) (key : String) :
    (s.run rs).slot row key = s.slot row key := by
  obtain ⟨_, _, hrun⟩ := s.run_frame rs
  rw [hrun]
  rfl

theorem sample_run (s : Sketch) (rs : List Request) : (s.run rs).sample = s.sample := by
  obtain ⟨_, _, hrun⟩ := s.run_frame rs
  rw [hrun]

theorem WellFormed.run (h : s.WellFormed) (rs : List Request) : (s.run rs).WellFormed := by
  induction rs using List.reverseRecOn with
  | nil => exact h
  | append_singleton rs r ih =>
    rw [run_append_singleton]
    cases r with
    | clear => exact ih.clear
    | increment key => exact ih.increment key

/-! ## A counter is a tally -/

/-- The keys that share a key's counter in a row. -/
def sharing (s : Sketch) (row : Fin 4) (key k : String) : Bool := s.slot row k = s.slot row key

/-- The key's counter in a row shows a tally. -/
structure Shows (s : Sketch) (row : Fin 4) (key : String) (t : Tally) : Prop where
  count_eq : (s.counter row key).toNat = t.count
  increments_eq : s.increments = t.increments

theorem counter_age (s : Sketch) (row : Fin 4) (key : String) :
    s.age.counter row key = s.counter row key / 2 := by
  change (s.counters.map (· / 2)).getD (s.place row key) 0 = s.counters.getD (s.place row key) 0 / 2
  rw [Array.getD_eq_getD_getElem?, Array.getD_eq_getD_getElem?, Array.getElem?_map]
  cases s.counters[s.place row key]? <;> rfl

theorem counter_clear (s : Sketch) (row : Fin 4) (key : String) : s.clear.counter row key = 0 := by
  change (s.counters.map fun _ => 0).getD (s.place row key) 0 = 0
  rw [Array.getD_eq_getD_getElem?, Array.getElem?_map]
  cases s.counters[s.place row key]? <;> rfl

theorem toNat_counter_bumpRows (h : s.WellFormed) (row : Fin 4) (key k : String) :
    ((s.bumpRows k).counter row key).toNat =
      raise (s.sharing row key k) (s.counter row key).toNat := by
  rw [counter_bumpRows h]
  unfold raise sharing
  by_cases hslot : s.slot row k = s.slot row key
  · simp [hslot, toNat_bump]
  · simp [hslot]

/-- A counter goes on showing the tally of the keys that share it. -/
theorem Shows.serve (hs : s.WellFormed) (h : s.Shows row key t) (r : Request) :
    (s.serve r).Shows row key (t.serve s.sample (s.sharing row key) r) := by
  cases r with
  | clear => exact ⟨congrArg UInt8.toNat (s.counter_clear row key), rfl⟩
  | increment k =>
    have hcount := toNat_counter_bumpRows hs row key k
    rw [h.count_eq] at hcount
    simp only [Sketch.serve, increment_eq, Tally.serve, ← h.increments_eq]
    generalize s.bumpRows k = counted at hcount ⊢
    split_ifs with hfull
    · refine ⟨?_, rfl⟩
      rw [counter_age, UInt8.toNat_div, hcount]
      rfl
    · exact ⟨hcount, rfl⟩

theorem Shows.run (hs : s.WellFormed) (h : s.Shows row key ⟨0, 0⟩) (rs : List Request) :
    (s.run rs).Shows row key (tally s.sample (s.sharing row key) rs) := by
  induction rs using List.reverseRecOn with
  | nil => exact h
  | append_singleton rs r ih =>
    have hstep := ih.serve (hs.run rs) r
    have hsharing : (s.run rs).sharing row key = s.sharing row key := by
      funext k
      simp only [sharing, slot_run]
    rw [sample_run, hsharing] at hstep
    rwa [run_append_singleton, tally_append_singleton]

theorem shows_new (hash : Fin 4 → String → UInt64) (numCounters sampleSize : UInt64)
    (row : Fin 4) (key : String) : (new hash numCounters sampleSize).Shows row key ⟨0, 0⟩ := by
  refine ⟨?_, rfl⟩
  unfold counter new
  rw [Array.getD_eq_getD_getElem?, Array.getElem?_replicate]
  split_ifs <;> rfl

/-- In every run a counter is the exact count of the keys that share it. -/
theorem shows_run (hash : Fin 4 → String → UInt64) (numCounters sampleSize : UInt64)
    (rs : List Request) (row : Fin 4) (key : String) :
    ((new hash numCounters sampleSize).run rs).Shows row key
      (tally (max 1 sampleSize.toNat) ((new hash numCounters sampleSize).sharing row key) rs) := by
  rw [Nat.max_comm]
  exact (shows_new hash numCounters sampleSize row key).run
    (wellFormed_new hash numCounters sampleSize) rs

/-! ## Estimates -/

theorem le_estimate {n : Nat} (h : ∀ row, n ≤ (s.counter row key).toNat) :
    n ≤ (s.estimate key).toNat := by
  simp only [estimate, UInt8.toNat_min]
  exact le_min (le_min (h 0) (h 1)) (le_min (h 2) (h 3))

theorem estimate_le_counter (s : Sketch) (row : Fin 4) (key : String) :
    (s.estimate key).toNat ≤ (s.counter row key).toNat := by
  simp only [estimate, UInt8.toNat_min]
  fin_cases row <;> simp

theorem agedCount_le_estimate (hash : Fin 4 → String → UInt64) (numCounters sampleSize : UInt64)
    (rs : List Request) (key : String) :
    agedCount (max 1 sampleSize.toNat) key rs ≤
      (((new hash numCounters sampleSize).run rs).estimate key).toNat := by
  apply le_estimate
  intro row
  rw [(shows_run hash numCounters sampleSize rs row key).count_eq]
  apply (tally_le _ rs).count_le
  intro k hk
  rw [of_decide_eq_true hk]
  exact decide_eq_true rfl

/-- A key that has its counter to itself in a row is not overestimated. -/
theorem estimate_le_agedCount (hash : Fin 4 → String → UInt64) (numCounters sampleSize : UInt64)
    {rs : List Request}
    (halone : ∀ k ∈ usedSinceClear rs,
      (new hash numCounters sampleSize).slot row k =
        (new hash numCounters sampleSize).slot row key → k = key) :
    (((new hash numCounters sampleSize).run rs).estimate key).toNat ≤
      agedCount (max 1 sampleSize.toNat) key rs := by
  calc (((new hash numCounters sampleSize).run rs).estimate key).toNat
    _ ≤ (((new hash numCounters sampleSize).run rs).counter row key).toNat :=
      estimate_le_counter _ row key
    _ = (tally (max 1 sampleSize.toNat)
          ((new hash numCounters sampleSize).sharing row key) rs).count :=
      (shows_run hash numCounters sampleSize rs row key).count_eq
    _ = agedCount (max 1 sampleSize.toNat) key rs := by
      refine congrArg Tally.count (tally_congr fun k hk => ?_)
      apply decide_eq_decide.2
      exact ⟨halone k hk, fun heq => heq ▸ rfl⟩

/-- In every run an estimate is at least the aged count of its key, and exactly that if in some row
no other key used since the last clear shares the counter.  Each counter lies in its row, and the
uses since the last halving never fill the sample. -/
theorem estimate_of_run (hash : Fin 4 → String → UInt64) (numCounters sampleSize : UInt64)
    (rs : List Request) (key : String) :
    let s := (new hash numCounters sampleSize).run rs
    let count := agedCount (max 1 sampleSize.toNat) key rs
    count ≤ (s.estimate key).toNat ∧
    ((∃ row, ∀ k ∈ usedSinceClear rs, s.slot row k = s.slot row key → k = key) →
      (s.estimate key).toNat = count) ∧
    s.counters.size = 4 * s.width ∧
    (∀ row k, s.slot row k < s.width ∧ s.place row k < s.counters.size) ∧
    s.increments < max 1 sampleSize.toNat := by
  intro s count
  have hs : s.WellFormed := (wellFormed_new hash numCounters sampleSize).run rs
  have hle := agedCount_le_estimate hash numCounters sampleSize rs key
  refine ⟨hle, ?_, hs.size_eq, fun row k => ⟨hs.slot_lt row k, hs.place_lt row k⟩, ?_⟩
  · rintro ⟨row, halone⟩
    simp only [s, slot_run] at halone
    exact le_antisymm (estimate_le_agedCount hash numCounters sampleSize halone) hle
  · rw [(shows_run hash numCounters sampleSize rs 0 key).increments_eq]
    exact increments_tally_lt (Nat.lt_of_lt_of_le Nat.zero_lt_one (Nat.le_max_left _ _)) rs

/-- Hash functions by which all keys share a counter in three rows and few do in the last one. -/
def lastRowHash (row : Fin 4) (key : String) : UInt64 :=
  if row.val = 3 then key.toList.foldl (fun n char => 31 * n + char.val.toUInt64) 0 else 0

/-- Uses of two keys, the first four of which fill a sample of four. -/
def twoKeys : List Request :=
  [.increment "a", .clear, .increment "a", .increment "b", .increment "b", .increment "a",
    .increment "b", .increment "a"]

theorem estimate_of_run_beside_sharing_key :
    let s := (new lastRowHash 256 4).run twoKeys
    s.slot 0 "b" = s.slot 0 "a" ∧ (s.counter 0 "a").toNat = 4 ∧
    (∃ row, ∀ k ∈ usedSinceClear twoKeys, s.slot row k = s.slot row "a" → k = "a") ∧
    (s.estimate "a").toNat = agedCount (max 1 (4 : UInt64).toNat) "a" twoKeys ∧
    agedCount (max 1 (4 : UInt64).toNat) "a" twoKeys = 2 :=
  have halone : ∃ row, ∀ k ∈ usedSinceClear twoKeys,
      ((new lastRowHash 256 4).run twoKeys).slot row k =
        ((new lastRowHash 256 4).run twoKeys).slot row "a" → k = "a" := by
    decide +kernel
  ⟨by decide +kernel,
    (shows_run lastRowHash 256 4 twoKeys 0 "a").count_eq.trans (by decide +kernel), halone,
    (estimate_of_run lastRowHash 256 4 twoKeys "a").2.1 halone, by decide +kernel⟩

end PodCache.Sketch
