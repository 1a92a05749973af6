import PodCache.Proofs.Local.RecencyRuns

/-!
# Recency caches keep what was used last

A key is used by a set and by a lookup that finds it, and its last use in a run is told by the
history alone (`lastUse`).  After every run the entries of a recency cache stand in the order of
their last use (`recent_run`), whatever was promoted, replaced, deleted or evicted and set again on
the way.  So the entry at the end of the list, which is the one to go when a new key finds the cache
full, is the one that has not been used for the longest time (`keepsLatest_of_run`).
-/

namespace PodCache.RecencyCache

open RecencyList (entryFor without)

variable {V : Type} {c : RecencyCache V} {rs : List (LocalRequest V)} {r : LocalRequest V}
  {es es' : List (Entry V)} {key : String}

/-! ## The history of a key -/

/-- Whether a request uses a key: it sets the key, or looks it up and finds it. -/
def uses (c : RecencyCache V) (key : String) : LocalRequest V → Bool
  | .set k _ _ => k = key
  | .get k => k = key ∧ (c.get k).1.isSome
  | .delete _ | .clear | .close | .maintain => false

/-- The last use of a key in a run that is given from its end. -/
def lastUseBack (c : RecencyCache V) (key : String) : List (LocalRequest V) → Nat
  | [] => 0
  | r :: earlier =>
    if (c.run earlier.reverse).uses key r then earlier.length + 1 else lastUseBack c key earlier

/-- The last use of a key in a run: the number of requests up to it, or zero if there was none. -/
def lastUse (c : RecencyCache V) (requests : List (LocalRequest V)) (key : String) : Nat :=
  lastUseBack c key requests.reverse

theorem lastUse_append_singleton (c : RecencyCache V) (rs : List (LocalRequest V))
    (r : LocalRequest V) (key : String) :
    lastUse c (rs ++ [r]) key =
      if (c.run rs).uses key r then rs.length + 1 else lastUse c rs key := by
  simp [lastUse, lastUseBack]

theorem lastUse_le (c : RecencyCache V) (rs : List (LocalRequest V)) (key : String) :
    lastUse c rs key ≤ rs.length := by
  induction rs using List.reverseRecOn with
  | nil => exact le_rfl
  | append_singleton rs r ih =>
    rw [lastUse_append_singleton, List.length_append, List.length_singleton]
    split_ifs
    · exact le_rfl
    · exact Nat.le_succ_of_le ih

/-! ## The order of the entries -/

/-- Entries in the order of their last use, the last one first. -/
structure Recent (c : RecencyCache V) (rs : List (LocalRequest V)) (es : List (Entry V)) :
    Prop where
  sorted : es.Pairwise fun newer older => lastUse c rs older.key < lastUse c rs newer.key
  used : ∀ e ∈ es, 0 < lastUse c rs e.key

theorem Recent.sublist (h : Recent c rs es) (hsub : es'.Sublist es) : Recent c rs es' :=
  ⟨h.sorted.sublist hsub, fun e he => h.used e (hsub.subset he)⟩

/-- A request that uses none of the keys leaves their order. -/
theorem Recent.spare (h : Recent c rs es)
    (hr : ∀ e ∈ es, (c.run rs).uses e.key r = false) : Recent c (rs ++ [r]) es := by
  have hsame (e : Entry V) (he : e ∈ es) : lastUse c (rs ++ [r]) e.key = lastUse c rs e.key := by
    simp [lastUse_append_singleton, hr e he]
  refine ⟨h.sorted.imp_of_mem fun {newer older} hnewer holder hlt => ?_, fun e he => ?_⟩
  · rwa [hsame newer hnewer, hsame older holder]
  · rw [hsame e he]
    exact h.used e he

/-- The key that is used now comes before all others. -/
theorem Recent.use (h : Recent c rs es) (e : Entry V)
    (hr : ∀ k, (c.run rs).uses k r = decide (e.key = k)) :
    Recent c (rs ++ [r]) (e :: without es e.key) := by
  have hnow : lastUse c (rs ++ [r]) e.key = rs.length + 1 := by
    simp [lastUse_append_singleton, hr]
  have hothers : Recent c (rs ++ [r]) (without es e.key) := by
    apply (h.sublist List.filter_sublist).spare
    intro d hd
    rw [hr]
    simpa using (RecencyList.mem_without.1 hd).2.symm
  refine ⟨List.pairwise_cons.2 ⟨fun d hd => ?_, hothers.sorted⟩, fun d hd => ?_⟩
  · have hne : e.key ≠ d.key := (RecencyList.mem_without.1 hd).2.symm
    have hle := lastUse_le c rs d.key
    simp only [hnow, lastUse_append_singleton, hr, hne, decide_false, Bool.false_eq_true, if_false]
    exact Nat.lt_succ_of_le hle
  · rcases List.mem_cons.1 hd with rfl | hd
    · rw [hnow]
      exact Nat.succ_pos _
    · exact hothers.used d hd

theorem uses_get (h : c.list.Holds c.entries) (key k : String) :
    c.uses k (.get key) = decide (key = k ∧ (entryFor c.entries key).isSome) := by
  simp only [uses, get_fst_eq h, Option.isSome_map]

/-- After every run the entries stand in the order of their last use. -/
theorem recent_run {maxSize : UInt64} (h : new maxSize = .ok c) (rs : List (LocalRequest V)) :
    Recent c rs (c.run rs).entries := by
  induction rs using List.reverseRecOn with
  | nil =>
    have hempty : (c.run []).entries = [] := entries_eq (holds_new h)
    rw [hempty]
    exact ⟨List.Pairwise.nil, nofun⟩
  | append_singleton rs r ih =>
    have hsound := sound_run h rs
    rw [run_append_singleton, (serves hsound.holds r).entries_eq]
    cases r with
    | get key =>
      have huses := uses_get hsound.holds key
      simp only [entriesAfter]
      cases he : entryFor (c.run rs).entries key with
      | none =>
        rw [he] at huses
        rw [RecencyList.without_of_not_mem (RecencyList.entryFor_eq_none_iff.1 he)]
        apply ih.spare
        simp [huses]
      | some e =>
        obtain ⟨-, rfl⟩ := (RecencyList.entryFor_eq_some_iff hsound.holds.nodup).1 he
        rw [he] at huses
        apply ih.use e
        simp [huses]
    | set key value cost =>
      have hfront : Recent c (rs ++ [.set key value cost])
          (⟨key, value, 1⟩ :: without (c.run rs).entries key) :=
        ih.use ⟨key, value, 1⟩ fun k => rfl
      exact hfront.sublist (List.take_sublist _ _)
    | delete key => exact (ih.spare fun _ _ => rfl).sublist List.filter_sublist
    | clear | close => exact ⟨List.Pairwise.nil, nofun⟩
    | maintain => exact ih.spare fun _ _ => rfl

/-! ## What a request leaves -/

/-- Nothing is evicted as long as the entries for other keys leave room. -/
theorem set_of_room {maxSize : Nat} (h : c.Sound maxSize) (key : String) (value : V)
    (hroom : (without c.entries key).length < maxSize) :
    (c.set key value).entries = ⟨key, value, 1⟩ :: without c.entries key ∧
      (c.set key value).evictions = c.evictions := by
  have hserves := serves_set h.holds key value 1
  have hlen : (without c.entries key).length + 1 ≤ c.maxSize := hroom.trans_eq h.maxSize_eq.symm
  refine ⟨?_, ?_⟩
  · rw [hserves.entries_eq, entriesAfter, List.take_of_length_le hlen]
  · rw [hserves.evictions_eq, evictionsOf, Nat.sub_eq_zero_of_le hlen, Nat.add_zero]

/-- A new key that finds the cache full takes the place of the last entry. -/
theorem set_of_full {maxSize : Nat} (h : c.Sound maxSize) (value : V) {front : List (Entry V)}
    {oldest : Entry V} (hk : key ∉ c.entries.map Entry.key) (hsplit : c.entries = front ++ [oldest])
    (hfull : c.entries.length = maxSize) :
    (c.set key value).entries = ⟨key, value, 1⟩ :: front ∧
      (c.set key value).evictions = c.evictions + 1 := by
  have hserves := serves_set h.holds key value 1
  have hlen : c.maxSize = front.length + 1 := by
    rw [h.maxSize_eq, ← hfull, hsplit, List.length_append, List.length_singleton]
  have hsame : without c.entries key = front ++ [oldest] := by
    rw [RecencyList.without_of_not_mem hk, hsplit]
  refine ⟨?_, ?_⟩
  · rw [hserves.entries_eq, entriesAfter, hsame, hlen, List.take_succ_cons, List.take_left']
    rfl
  · rw [hserves.evictions_eq, evictionsOf, hsame, hlen, List.length_append, List.length_singleton]
    omega

theorem set_of_mem {maxSize : Nat} (h : c.Sound maxSize) (value : V)
    (hk : key ∈ c.entries.map Entry.key) :
    (c.set key value).entries = ⟨key, value, 1⟩ :: without c.entries key ∧
      (c.set key value).evictions = c.evictions := by
  apply set_of_room h
  have hfound : (entryFor c.entries key).isSome := by
    rw [Option.isSome_iff_ne_none]
    exact fun hnone => RecencyList.entryFor_eq_none_iff.1 hnone hk
  have hlen := length_without_add h.holds.nodup key
  have hle := h.length_le
  rw [if_pos hfound] at hlen
  omega

theorem get_of_mem (h : c.list.Holds c.entries) {e : Entry V} (he : e ∈ c.entries) :
    (c.get e.key).1 = some e.value ∧ (c.get e.key).2.entries = e :: without c.entries e.key := by
  have hfound := (RecencyList.entryFor_eq_some_iff h.nodup).2 ⟨he, rfl⟩
  have hentries := (serves_get h e.key).entries_eq
  simp only [entriesAfter, hfound, Option.toList_some, List.singleton_append] at hentries
  refine ⟨?_, hentries⟩
  rw [get_fst_eq h, hfound, Option.map_some]

theorem get_of_not_mem (h : c.list.Holds c.entries) (hk : key ∉ c.entries.map Entry.key) :
    (c.get key).1 = none ∧ (c.get key).2.entries = c.entries := by
  have hnone := RecencyList.entryFor_eq_none_iff.2 hk
  have hentries := (serves_get h key).entries_eq
  simp only [entriesAfter, hnone, Option.toList_none, List.nil_append] at hentries
  rw [RecencyList.without_of_not_mem hk] at hentries
  refine ⟨?_, hentries⟩
  rw [get_fst_eq h, hnone, Option.map_none]

theorem delete_of_not_mem (h : c.list.Holds c.entries) (hk : key ∉ c.entries.map Entry.key) :
    (c.delete key).entries = c.entries := by
  have hentries := (serves_delete h key).entries_eq
  rwa [entriesAfter, RecencyList.without_of_not_mem hk] at hentries

/-- Entries in the order of their last use that are not none have an oldest one. -/
theorem Recent.exists_oldest (h : Recent c rs es) (hne : es ≠ []) :
    ∃ front oldest, es = front ++ [oldest] ∧
      ∀ e ∈ front, lastUse c rs oldest.key < lastUse c rs e.key := by
  obtain ⟨front, oldest, rfl⟩ := (List.eq_nil_or_concat' es).resolve_left hne
  have holdest := (List.pairwise_append.1 h.sorted).2.2
  exact ⟨front, oldest, rfl, fun e he => holdest e he oldest (List.mem_singleton_self _)⟩

/-! ## What is evicted -/

/-- A cache that keeps the keys of a run that were used last. -/
structure KeepsLatest (c : RecencyCache V) (rs : List (LocalRequest V)) (maxSize : Nat)
    (d : RecencyCache V) : Prop where
  /-- The entries stand in the order of their last use. -/
  recent : Recent c rs d.entries
  /-- There are no more of them than there may be. -/
  length_le : d.entries.length ≤ maxSize
  /-- A set of a resident key evicts nothing. -/
  overwrite : ∀ key value, key ∈ d.entries.map Entry.key →
    (d.set key value).entries = ⟨key, value, 1⟩ :: without d.entries key ∧
      (d.set key value).evictions = d.evictions
  /-- Neither does a set of a new key as long as there is room. -/
  add : ∀ key value, key ∉ d.entries.map Entry.key → d.entries.length < maxSize →
    (d.set key value).entries = ⟨key, value, 1⟩ :: d.entries ∧
      (d.set key value).evictions = d.evictions
  /-- In a full cache it evicts one entry, the one whose last use is the oldest. -/
  evict : ∀ key value, key ∉ d.entries.map Entry.key → d.entries.length = maxSize →
    ∃ front oldest, d.entries = front ++ [oldest] ∧
      (∀ e ∈ front, lastUse c rs oldest.key < lastUse c rs e.key) ∧
      oldest.key ≠ key ∧
      (d.set key value).entries = ⟨key, value, 1⟩ :: front ∧
      (d.set key value).evictions = d.evictions + 1
  /-- A lookup that finds its key brings the entry to the front. -/
  hit : ∀ e ∈ d.entries, (d.get e.key).1 = some e.value ∧
    (d.get e.key).2.entries = e :: without d.entries e.key
  /-- A miss changes neither contents nor order. -/
  miss : ∀ key, key ∉ d.entries.map Entry.key →
    (d.get key).1 = none ∧ (d.get key).2.entries = d.entries
  /-- Nor does deleting an absent key. -/
  absent : ∀ key, key ∉ d.entries.map Entry.key → (d.delete key).entries = d.entries
  /-- Costs play no part. -/
  cost : ∀ key value cost,
    (LocalCache.recency d).set key value cost = (true, .recency (d.set key value))

/-- After every run a cache keeps the keys that were used last: what a set evicts, if anything, is
the entry whose last use is the oldest. -/
theorem keepsLatest_of_run {maxSize : UInt64} (h : new maxSize = .ok c)
    (rs : List (LocalRequest V)) : KeepsLatest c rs maxSize.toNat (c.run rs) := by
  have hpos := maxSize_pos h
  have hsound := sound_run h rs
  have hrecent := recent_run h rs
  generalize c.run rs = d at hsound hrecent ⊢
  refine ⟨hrecent, hsound.length_le, fun key value hk => set_of_mem hsound value hk,
    fun key value hk hroom => ?_, fun key value hk hfull => ?_,
    fun e he => get_of_mem hsound.holds he, fun key hk => get_of_not_mem hsound.holds hk,
    fun key hk => delete_of_not_mem hsound.holds hk, fun _ _ _ => rfl⟩
  · have hset := set_of_room hsound key value
    rw [RecencyList.without_of_not_mem hk] at hset
    exact hset hroom
  · have hne : d.entries ≠ [] := by
      intro hnil
      rw [hnil] at hfull
      exact absurd hfull hpos.ne
    obtain ⟨front, oldest, hsplit, holdest⟩ := hrecent.exists_oldest hne
    obtain ⟨hentries, hevictions⟩ := set_of_full hsound value hk hsplit hfull
    rw [hsplit] at hk
    exact ⟨front, oldest, hsplit, holdest, fun heq => hk (by simp [heq]), hentries, hevictions⟩

/-- Requests to a cache for two entries in which a key is evicted, set again and read. -/
def returningRequests : List (LocalRequest Nat) :=
  [.set "a" 1 1, .set "b" 2 9, .set "c" 3 1, .get "a", .set "a" 4 1, .get "c", .delete "b"]

theorem keepsLatest_of_run_with_returning_key :
    ∃ c : RecencyCache Nat, new 2 = .ok c ∧
      (c.run returningRequests).entries.map Entry.key = ["c", "a"] ∧
      lastUse c returningRequests "c" = 6 ∧ lastUse c returningRequests "a" = 5 ∧
      ∃ front oldest, (c.run returningRequests).entries = front ++ [oldest] ∧
        (∀ e ∈ front,
          lastUse c returningRequests oldest.key < lastUse c returningRequests e.key) ∧
        oldest.key ≠ "d" ∧
        ((c.run returningRequests).set "d" 5).entries = ⟨"d", 5, 1⟩ :: front ∧
        ((c.run returningRequests).set "d" 5).evictions =
          (c.run returningRequests).evictions + 1 :=
  ⟨_, rfl, by decide +kernel, by decide +kernel, by decide +kernel,
    (keepsLatest_of_run (show new 2 = .ok _ from rfl) returningRequests).evict "d" 5
      (by decide +kernel) (by decide +kernel)⟩

end PodCache.RecencyCache
