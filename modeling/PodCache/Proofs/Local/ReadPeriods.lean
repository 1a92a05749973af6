import PodCache.Proofs.Lists
import PodCache.Proofs.Local.Sizing

/-!
# What a drain gives out

A period of a read buffer is what is recorded between two drains or clears.  Each stripe counts the
first different keys of its period, as many as it has room for, and a drain gives out exactly these
counts (`reads_of_period`).
-/

namespace PodCache

namespace ReadBuffer

/-! ## One stripe -/

/-- The keys that a stripe has room for: the first different ones. -/
def keptKeys (capacity : Nat) (keys : List String) : List String := keys.eraseDups.take capacity

/-- The keys that a stripe has room for, each with the number of its reads. -/
def counts (capacity : Nat) (keys : List String) : List (String × Nat) :=
  (keptKeys capacity keys).map fun key => (key, min (keys.count key) maxCount)

/-- A stripe counts the reads of some keys. -/
def Stripe.Counts (capacity : Nat) (keys : List String) (stripe : Stripe) : Prop :=
  ∀ key, stripe[key]? =
    if key ∈ keptKeys capacity keys then some (min (keys.count key) maxCount) else none

variable {capacity : Nat} {keys : List String} {stripe : Stripe}

theorem nodup_keptKeys (capacity : Nat) (keys : List String) : (keptKeys capacity keys).Nodup :=
  (nodup_eraseDups keys).sublist (List.take_sublist _ _)

theorem mem_counts_iff {key : String} {n : Nat} :
    (key, n) ∈ counts capacity keys ↔
      key ∈ keptKeys capacity keys ∧ n = min (keys.count key) maxCount := by
  simp only [counts, List.mem_map, Prod.mk.injEq]
  constructor
  · rintro ⟨key, hk, rfl, rfl⟩
    exact ⟨hk, rfl⟩
  · rintro ⟨hk, rfl⟩
    exact ⟨key, hk, rfl, rfl⟩

theorem nodup_counts (capacity : Nat) (keys : List String) : (counts capacity keys).Nodup :=
  (nodup_keptKeys capacity keys).map fun _ _ h => (Prod.mk.inj h).1

theorem nodup_toList (stripe : Stripe) : stripe.toList.Nodup :=
  Std.TreeMap.distinct_keys_toList.imp fun h he => h (by rw [he]; exact Std.ReflCmp.compare_self)

theorem Stripe.Counts.perm (h : Stripe.Counts capacity keys stripe) :
    stripe.toList.Perm (counts capacity keys) := by
  rw [List.perm_ext_iff_of_nodup (nodup_toList stripe) (nodup_counts capacity keys)]
  rintro ⟨key, n⟩
  rw [Std.TreeMap.mem_toList_iff_getElem?_eq_some, h key, mem_counts_iff]
  split_ifs with hk
  · simp [hk, eq_comm]
  · simp [hk]

theorem Stripe.Counts.size_eq (h : Stripe.Counts capacity keys stripe) :
    stripe.size = min capacity keys.eraseDups.length := by
  rw [← Std.TreeMap.length_toList, h.perm.length_eq, counts, List.length_map, keptKeys,
    List.length_take]

theorem counts_empty (capacity : Nat) : Stripe.Counts capacity [] ∅ := by
  intro key
  simp [keptKeys]

/-- A key that has no room when it comes gets none later. -/
theorem keptKeys_append_of_le (h : capacity ≤ keys.eraseDups.length) (key : String) :
    keptKeys capacity (keys ++ [key]) = keptKeys capacity keys := by
  rw [keptKeys, eraseDups_append_singleton]
  split_ifs
  · rfl
  · rw [List.take_append_of_le_length h, keptKeys]

theorem Stripe.Counts.recordIn (h : Stripe.Counts capacity keys stripe) (key : String) :
    Stripe.Counts capacity (keys ++ [key]) (recordIn capacity stripe key) := by
  intro other
  by_cases hkept : key ∈ keptKeys capacity keys
  · have hfound : stripe[key]? = some (min (keys.count key) maxCount) := by rw [h key, if_pos hkept]
    have hmem : key ∈ keys := List.mem_eraseDups.1 (List.mem_of_mem_take hkept)
    have hkeys : keptKeys capacity (keys ++ [key]) = keptKeys capacity keys := by
      rw [keptKeys, eraseDups_append_singleton, if_pos hmem, keptKeys]
    rw [ReadBuffer.recordIn, hfound, hkeys]
    dsimp only
    rw [Std.TreeMap.getElem?_insert, h other]
    rcases eq_or_ne key other with rfl | hne
    · simp only [Std.compare_self, if_true, if_pos hkept, List.count_append,
        List.count_singleton_self]
      congr 1
      omega
    · simp [hne, List.count_append]
  · have hfound : stripe[key]? = none := by rw [h key, if_neg hkept]
    rw [ReadBuffer.recordIn, hfound]
    dsimp only
    by_cases hroom : stripe.size < capacity
    · have hfew : keys.eraseDups.length < capacity := by rw [h.size_eq] at hroom; omega
      have hall : keptKeys capacity keys = keys.eraseDups := List.take_of_length_le hfew.le
      have hnew : key ∉ keys := by rwa [hall, List.mem_eraseDups] at hkept
      have hkeys : keptKeys capacity (keys ++ [key]) = keys.eraseDups ++ [key] := by
        rw [keptKeys, eraseDups_append_singleton, if_neg hnew, List.take_of_length_le (by simpa)]
      rw [if_pos hroom, hkeys, Std.TreeMap.getElem?_insert, h other, hall]
      rcases eq_or_ne key other with rfl | hne
      · have hcount : keys.count key = 0 := List.count_eq_zero.2 hnew
        simp [hcount, maxCount, UInt32.size]
      · simp [hne, hne.symm, List.count_append]
    · have hfull : capacity ≤ keys.eraseDups.length := by rw [h.size_eq] at hroom; omega
      rw [if_neg hroom, keptKeys_append_of_le hfull, h other]
      refine if_ctx_congr Iff.rfl (fun hother => ?_) fun _ => rfl
      have hne : key ≠ other := fun he => hkept (he ▸ hother)
      rw [List.count_append, List.count_singleton, if_neg (by simpa using hne), Nat.add_zero]

/-! ## What has been recorded -/

/-- What a read buffer is asked. -/
inductive ReadRequest where
  | record (key : String)
  | drain
  | clear

/-- The key that a request counts a read of. -/
def ReadRequest.recorded? : ReadRequest → Option String
  | .record key => some key
  | .drain | .clear => none

/-- Serves a request; only a drain gives out counts. -/
def serve (b : ReadBuffer) : ReadRequest → List (String × Nat) × ReadBuffer
  | .record key => ([], b.record key)
  | .drain => b.drain
  | .clear => ([], b.clear)

/-- The buffer after some requests. -/
def after (b : ReadBuffer) (rs : List ReadRequest) : ReadBuffer :=
  rs.foldl (fun b r => (b.serve r).2) b

/-- All that is given out during some requests. -/
def given (b : ReadBuffer) : List ReadRequest → List (String × Nat)
  | [] => []
  | r :: rs => (b.serve r).1 ++ (b.serve r).2.given rs

/-- The keys whose reads were recorded since the last drain or clear, one for each read. -/
def period (rs : List ReadRequest) : List String :=
  rs.foldl (fun keys r =>
    match r with
    | .record key => keys ++ [key]
    | .drain | .clear => []) []

variable {b : ReadBuffer} {hash : String → UInt64}

theorem after_append_singleton (b : ReadBuffer) (rs : List ReadRequest) (r : ReadRequest) :
    b.after (rs ++ [r]) = ((b.after rs).serve r).2 := by
  rw [after, List.foldl_append]
  rfl

theorem given_append_singleton (b : ReadBuffer) (rs : List ReadRequest) (r : ReadRequest) :
    b.given (rs ++ [r]) = b.given rs ++ ((b.after rs).serve r).1 := by
  induction rs generalizing b with
  | nil => simp [given, after]
  | cons r' rs ih => rw [List.cons_append, given, ih, given, List.append_assoc]; rfl

/-- The stripes in use count some reads, and the others are empty. -/
structure Counts (hash : String → UInt64) (capacity : Nat) (keys : List String) (b : ReadBuffer) :
    Prop where
  hash_eq : b.hash = hash
  capacity_eq : b.stripeCapacity = capacity
  active : ∀ i : Fin 16,
    Stripe.Counts capacity (keys.filter fun key => (hash key).toNat % 16 = i) b.active[i]
  idle : b.idle = noReads

theorem counts_noReads (capacity : Nat) (i : Fin 16) : Stripe.Counts capacity [] noReads[i] := by
  rw [noReads, Fin.getElem_fin, Vector.getElem_replicate]
  exact counts_empty capacity

theorem counts_new (hash : String → UInt64) (capacity : UInt64) :
    Counts hash (max 8 (capacity.toNat / 16)) [] (new hash capacity) where
  hash_eq := rfl
  capacity_eq := Sizing.toNat_stripe capacity
  active := counts_noReads _
  idle := rfl

theorem Counts.record (h : Counts hash capacity keys b) (key : String) :
    Counts hash capacity (keys ++ [key]) (b.record key) where
  hash_eq := h.hash_eq
  capacity_eq := h.capacity_eq
  active i := by
    have hstripe : (b.stripeOf key : Nat) = (hash key).toNat % 16 := by
      simp only [stripeOf, h.hash_eq]
    have hactive := h.active i
    rw [List.filter_append]
    by_cases hi : (hash key).toNat % 16 = i
    · obtain rfl : b.stripeOf key = i := Fin.ext (hstripe.trans hi)
      simpa [ReadBuffer.record, hi, h.capacity_eq] using hactive.recordIn key
    · have hne : (b.stripeOf key : Nat) ≠ i := fun he => hi (hstripe.symm.trans he)
      simpa [ReadBuffer.record, hi, Vector.getElem_set_ne _ _ hne] using hactive
  idle := h.idle

theorem Counts.drain (h : Counts hash capacity keys b) : Counts hash capacity [] b.drain.2 where
  hash_eq := h.hash_eq
  capacity_eq := h.capacity_eq
  active i := by
    change Stripe.Counts capacity [] b.idle[i]
    rw [h.idle]
    exact counts_noReads capacity i
  idle := rfl

theorem Counts.clear (h : Counts hash capacity keys b) : Counts hash capacity [] b.clear where
  hash_eq := h.hash_eq
  capacity_eq := h.capacity_eq
  active := counts_noReads capacity
  idle := rfl

theorem counts_after (hash : String → UInt64) (capacity : UInt64) (rs : List ReadRequest) :
    Counts hash (max 8 (capacity.toNat / 16)) (period rs) ((new hash capacity).after rs) := by
  induction rs using List.reverseRecOn with
  | nil => exact counts_new hash capacity
  | append_singleton rs r ih =>
    rw [after_append_singleton, period, List.foldl_append]
    cases r with
    | record key => exact ih.record key
    | drain => exact ih.drain
    | clear => exact ih.clear

/-! ## What is given out -/

/-- The counts of a key among those given out. -/
def tally (key : String) (given : List (String × Nat)) : Nat :=
  ((given.filter fun read => read.1 = key).map Prod.snd).sum

theorem tally_append (key : String) (first second : List (String × Nat)) :
    tally key (first ++ second) = tally key first + tally key second := by
  rw [tally, List.filter_append, List.map_append, List.sum_append, tally, tally]

theorem tally_eq_zero {key : String} {given : List (String × Nat)}
    (h : key ∉ given.map Prod.fst) : tally key given = 0 := by
  have hnone : given.filter (fun read => read.1 = key) = [] := by
    rw [List.filter_eq_nil_iff]
    rintro read hread heq
    exact h (List.mem_map.2 ⟨read, hread, of_decide_eq_true heq⟩)
  rw [tally, hnone, List.map_nil, List.sum_nil]

/-- A key that is given out once is counted at most as often as its one count says. -/
theorem tally_le {key : String} {given : List (String × Nat)} {bound : Nat}
    (h : (given.map Prod.fst).Nodup) (hb : ∀ n, (key, n) ∈ given → n ≤ bound) :
    tally key given ≤ bound := by
  induction given with
  | nil => exact Nat.zero_le _
  | cons read given ih =>
    obtain ⟨other, n⟩ := read
    obtain ⟨hother, hrest⟩ := List.nodup_cons.1 h
    rw [← List.singleton_append, tally_append]
    by_cases he : other = key
    · subst he
      rw [tally_eq_zero hother, tally]
      simpa using hb n (by simp)
    · have hfirst : tally key [(other, n)] = 0 := tally_eq_zero (by simpa using Ne.symm he)
      rw [hfirst, Nat.zero_add]
      exact ih hrest fun n hn => hb n (List.mem_cons_of_mem _ hn)

/-- What a drain takes from each stripe, given the keys of the period. -/
def shares (hash : String → UInt64) (capacity : Nat) (keys : List String) : List (String × Nat) :=
  (List.finRange 16).flatMap fun i : Fin 16 =>
    counts capacity (keys.filter fun key => (hash key).toNat % 16 = i)

theorem reads_eq (set : StripeSet) :
    reads set = (List.finRange 16).flatMap fun i : Fin 16 => set[i].toList := by
  have hset : set.toList = (List.finRange 16).map fun i : Fin 16 => set[i] := by
    refine List.ext_getElem (by simp) fun i hi _ => ?_
    simp
  rw [reads, hset, List.flatMap_map]

theorem Counts.drain_perm (h : Counts hash capacity keys b) :
    b.drain.1.Perm (shares hash capacity keys) := by
  change (reads b.active).Perm _
  rw [reads_eq]
  exact List.Perm.flatMap_left _ fun i _ => (h.active i).perm

theorem mem_keptKeys {key : String} (h : key ∈ keptKeys capacity keys) : key ∈ keys :=
  List.mem_eraseDups.1 (List.mem_of_mem_take h)

theorem map_fst_counts (capacity : Nat) (keys : List String) :
    (counts capacity keys).map Prod.fst = keptKeys capacity keys := by
  simp [counts, Function.comp_def]

theorem nodup_keys_shares (hash : String → UInt64) (capacity : Nat) (keys : List String) :
    ((shares hash capacity keys).map Prod.fst).Nodup := by
  simp only [shares, List.map_flatMap, map_fst_counts]
  rw [List.nodup_flatMap]
  refine ⟨fun i _ => nodup_keptKeys _ _, (List.nodup_finRange 16).imp fun {i j} hne => ?_⟩
  intro key hi hj
  have hi' := (List.mem_filter.1 (mem_keptKeys hi)).2
  have hj' := (List.mem_filter.1 (mem_keptKeys hj)).2
  exact hne (Fin.ext ((of_decide_eq_true hi').symm.trans (of_decide_eq_true hj')))

theorem mem_shares_iff {key : String} {n : Nat} :
    (key, n) ∈ shares hash capacity keys ↔
      key ∈ keptKeys capacity
          (keys.filter fun other => (hash other).toNat % 16 = (hash key).toNat % 16) ∧
        n = min (keys.count key) maxCount := by
  have hcount (i : Nat) (hi : (hash key).toNat % 16 = i) :
      (keys.filter fun other => (hash other).toNat % 16 = i).count key = keys.count key :=
    List.count_filter (by simpa using hi)
  rw [shares, List.mem_flatMap]
  constructor
  · rintro ⟨i, -, hmem⟩
    obtain ⟨hkept, rfl⟩ := mem_counts_iff.1 hmem
    have hi := of_decide_eq_true (List.mem_filter.1 (mem_keptKeys hkept)).2
    exact ⟨by rwa [hi], by rw [hcount i hi]⟩
  · rintro ⟨hkept, rfl⟩
    refine ⟨⟨(hash key).toNat % 16, by omega⟩, List.mem_finRange _, mem_counts_iff.2 ⟨hkept, ?_⟩⟩
    rw [hcount _ rfl]

/-- With few different keys in the period every one of them has room. -/
theorem shares_perm_of_le (h : keys.eraseDups.length ≤ capacity) :
    (shares hash capacity keys).Perm
      (keys.eraseDups.map fun key => (key, min (keys.count key) maxCount)) := by
  have hall (p : String → Bool) :
      keptKeys capacity (keys.filter p) = (keys.filter p).eraseDups := by
    have hsub : (keys.filter p).eraseDups ⊆ keys.eraseDups := by
      intro key hkey
      rw [List.mem_eraseDups] at hkey ⊢
      exact List.mem_of_mem_filter hkey
    exact List.take_of_length_le
      (((nodup_eraseDups _).subperm hsub).length_le.trans h)
  rw [List.perm_ext_iff_of_nodup ((nodup_keys_shares _ _ _).of_map _)
    ((nodup_eraseDups keys).map fun _ _ he => (Prod.mk.inj he).1)]
  rintro ⟨key, n⟩
  rw [mem_shares_iff, hall, List.mem_eraseDups, List.mem_filter, List.mem_map]
  constructor
  · rintro ⟨⟨hkey, -⟩, rfl⟩
    exact ⟨key, List.mem_eraseDups.2 hkey, rfl⟩
  · rintro ⟨other, hother, he⟩
    obtain ⟨rfl, rfl⟩ := Prod.mk.inj he
    exact ⟨⟨List.mem_eraseDups.1 hother, by simp⟩, rfl⟩

theorem Counts.tally_drain_le (h : Counts hash capacity keys b) (key : String) :
    tally key b.drain.1 ≤ keys.count key := by
  apply tally_le
  · exact (h.drain_perm.map Prod.fst).nodup_iff.2 (nodup_keys_shares _ _ _)
  · intro n hn
    obtain ⟨-, rfl⟩ := mem_shares_iff.1 (h.drain_perm.mem_iff.1 hn)
    exact min_le_left _ _

/-- All counts of a key that have been given out, and its reads since, stay within its records. -/
theorem tally_given_le (hash : String → UInt64) (capacity : UInt64) (rs : List ReadRequest)
    (key : String) :
    tally key ((new hash capacity).given rs) + (period rs).count key ≤
      (rs.filterMap ReadRequest.recorded?).count key := by
  induction rs using List.reverseRecOn with
  | nil => exact Nat.zero_le _
  | append_singleton rs r ih =>
    have hcounts := counts_after hash capacity rs
    rw [given_append_singleton, tally_append, List.filterMap_append, List.count_append]
    cases r with
    | record other =>
      have hperiod : period (rs ++ [.record other]) = period rs ++ [other] := by
        rw [period, List.foldl_append]; rfl
      have hnone : tally key (((new hash capacity).after rs).serve (.record other)).1 = 0 := rfl
      have hone : [ReadRequest.record other].filterMap ReadRequest.recorded? = [other] := rfl
      rw [hperiod, hnone, hone, List.count_append]
      omega
    | drain =>
      have hperiod : period (rs ++ [.drain]) = [] := by rw [period, List.foldl_append]; rfl
      have hle := hcounts.tally_drain_le key
      rw [hperiod, serve, List.count_nil]
      omega
    | clear =>
      have hperiod : period (rs ++ [.clear]) = [] := by rw [period, List.foldl_append]; rfl
      have hnone : tally key (((new hash capacity).after rs).serve .clear).1 = 0 := rfl
      rw [hperiod, hnone, List.count_nil]
      omega

/-- A drain gives out, from each stripe, the first different keys of the period that it has room
for, each with its number of reads in the period, and every key once.  When the period has no more
different keys than one stripe has room for, no read of it is missing.  All that is given out of a
key stays within the reads that were recorded of it. -/
theorem reads_of_period (hash : String → UInt64) (capacity : UInt64) (rs : List ReadRequest) :
    let drained := ((new hash capacity).after rs).drain.1
    let room := max 8 (capacity.toNat / 16)
    drained.Perm (shares hash room (period rs)) ∧
      (drained.map Prod.fst).Nodup ∧
      ((period rs).eraseDups.length ≤ room →
        drained.Perm ((period rs).eraseDups.map
          fun key => (key, min ((period rs).count key) (2 ^ 32 - 1)))) ∧
      ∀ key, tally key ((new hash capacity).given rs) + tally key drained ≤
        (rs.filterMap ReadRequest.recorded?).count key := by
  intro drained room
  have hcounts := counts_after hash capacity rs
  have hperm : drained.Perm (shares hash room (period rs)) := hcounts.drain_perm
  refine ⟨hperm, ?_, fun hfew => hperm.trans (shares_perm_of_le hfew), fun key => ?_⟩
  · exact (hperm.map Prod.fst).nodup_iff.2 (nodup_keys_shares hash room (period rs))
  · have hgiven := tally_given_le hash capacity rs key
    have hdrained : tally key drained ≤ (period rs).count key := hcounts.tally_drain_le key
    omega

/-- Reads before a drain and reads before a clear are not given out again. -/
theorem reads_of_period_of_two_keys :
    ((new (fun _ => 5) 0).after [.record "a", .drain, .record "b", .clear,
        .record "c", .record "a", .record "c"]).drain.1.Perm [("c", 2), ("a", 1)] :=
  (reads_of_period (fun _ => 5) 0 [.record "a", .drain, .record "b", .clear,
    .record "c", .record "a", .record "c"]).2.2.1 (by decide)

end ReadBuffer

end PodCache
