import PodCache.Proofs.Local.RecencyRuns

/-!
# Larger recency caches hold more

Two recency caches of different sizes that get the same requests drift apart: a lookup may bring an
entry to the front that only the larger one holds, and a set may evict in one of them alone.  Still
the entries of the smaller one are always among those of the larger one, in the same order.  What
carries the induction is that the larger cache never has more entries ahead than room
(`Within.gap`): whenever it evicts, so does the smaller one.  Hence what hits in the smaller cache
hits in the larger one, which never counts more misses (`inclusion_of_run`).
-/

namespace PodCache.RecencyCache

open RecencyList (entryFor without)

variable {V : Type} {n m : Nat} {small large : List (Entry V)} {key : String}

/-- The entries of a cache for `n` entries among those of a cache for `m` entries. -/
structure Within (n m : Nat) (small large : List (Entry V)) : Prop where
  sublist : small.Sublist large
  gap : large.length + n ≤ small.length + m

theorem nodup_of_sublist (h : small.Sublist large) (hn : (large.map Entry.key).Nodup) :
    (small.map Entry.key).Nodup :=
  hn.sublist (h.map Entry.key)

/-- What is found among some of the entries is found among all. -/
theorem entryFor_of_sublist (h : small.Sublist large) (hn : (large.map Entry.key).Nodup)
    {e : Entry V} (he : entryFor small key = some e) : entryFor large key = some e := by
  rw [RecencyList.entryFor_eq_some_iff (nodup_of_sublist h hn)] at he
  rw [RecencyList.entryFor_eq_some_iff hn]
  exact ⟨h.subset he.1, he.2⟩

theorem Within.cons (h : Within n m small large) (e : Entry V) :
    Within n m (e :: small) (e :: large) := by
  have hgap := h.gap
  refine ⟨h.sublist.cons_cons e, ?_⟩
  simp only [List.length_cons]
  omega

/-- Dropping a key takes an entry off the larger list whenever it takes one off the smaller. -/
theorem Within.without (h : Within n m small large) (hn : (large.map Entry.key).Nodup)
    (key : String) : Within n m (without small key) (without large key) := by
  have hgap := h.gap
  have hsmall := length_without_add (nodup_of_sublist h.sublist hn) key
  have hlarge := length_without_add hn key
  refine ⟨h.sublist.filter _, ?_⟩
  cases hs : entryFor small key with
  | none =>
    simp only [hs, Option.isSome_none, Bool.false_eq_true, if_false] at hsmall
    omega
  | some e =>
    rw [entryFor_of_sublist h.sublist hn hs] at hlarge
    simp only [hs, Option.isSome_some, if_true] at hsmall hlarge
    omega

/-- A lookup may bring an entry to the front in the larger list alone. -/
theorem Within.use (h : Within n m small large) (hn : (large.map Entry.key).Nodup)
    (key : String) :
    Within n m ((entryFor small key).toList ++ RecencyList.without small key)
      ((entryFor large key).toList ++ RecencyList.without large key) := by
  have hsmall := RecencyList.entryFor_append_without_perm (nodup_of_sublist h.sublist hn) key
  have hlarge := RecencyList.entryFor_append_without_perm hn key
  refine ⟨List.Sublist.append ?_ (h.without hn key).sublist, ?_⟩
  · cases hs : entryFor small key with
    | none => exact List.nil_sublist _
    | some e => rw [entryFor_of_sublist h.sublist hn hs]
  · rw [hsmall.length_eq, hlarge.length_eq]
    exact h.gap

/-- Cutting both lists off at their bounds keeps the smaller one within the larger. -/
theorem Within.take (h : Within n m small large) :
    Within n m (small.take n) (large.take m) := by
  have hgap := h.gap
  refine ⟨?_, ?_⟩
  · by_cases hle : small.length ≤ n
    · have hlarge : large.length ≤ m := by omega
      rw [List.take_of_length_le hle, List.take_of_length_le hlarge]
      exact h.sublist
    · -- what is cut off the smaller list lies behind its first entries, also in the larger one
      have hsplit := h.sublist
      rw [← List.take_append_drop n small, List.append_sublist_iff] at hsplit
      obtain ⟨front, rest, rfl, hfront, hrest⟩ := hsplit
      have hlen := hrest.length_le
      rw [List.length_drop] at hlen
      rw [List.length_append] at hgap
      have hm : front.length ≤ m := by omega
      rw [List.take_append, List.take_of_length_le hm]
      exact hfront.trans (List.sublist_append_left _ _)
  · simp only [List.length_take]
    omega

theorem Within.entriesAfter (h : Within n m small large) (hle : n ≤ m)
    (hn : (large.map Entry.key).Nodup) (r : LocalRequest V) :
    Within n m (entriesAfter n small r) (entriesAfter m large r) := by
  cases r with
  | get key => exact h.use hn key
  | set key value cost => exact ((h.without hn key).cons ⟨key, value, 1⟩).take
  | delete key => exact h.without hn key
  | clear | close => exact ⟨List.nil_sublist _, Nat.add_le_add_left hle 0⟩
  | maintain => exact h

theorem Within.missesOf_le (h : Within n m small large) (hn : (large.map Entry.key).Nodup)
    (r : LocalRequest V) : missesOf large r ≤ missesOf small r := by
  cases r with
  | get key =>
    simp only [missesOf]
    cases hs : entryFor small key with
    | none =>
      cases hl : entryFor large key <;> simp
    | some e => rw [entryFor_of_sublist h.sublist hn hs]
  | set _ _ _ | delete _ | clear | close | maintain => exact le_rfl

/-! ## Runs -/

theorem within_run {n m : UInt64} {small large : RecencyCache V} (hs : new n = .ok small)
    (hl : new m = .ok large) (hle : n ≤ m) (rs : List (LocalRequest V)) :
    Within n.toNat m.toNat (small.run rs).entries (large.run rs).entries ∧
      (large.run rs).misses ≤ (small.run rs).misses := by
  have hle := UInt64.le_iff_toNat_le.1 hle
  induction rs using List.reverseRecOn with
  | nil =>
    have hsmall : (small.run []).entries = [] := entries_eq (holds_new hs)
    have hlarge : (large.run []).entries = [] := entries_eq (holds_new hl)
    obtain rfl := new_eq hs
    obtain rfl := new_eq hl
    rw [hsmall, hlarge]
    exact ⟨⟨List.nil_sublist _, Nat.add_le_add_left hle 0⟩, le_rfl⟩
  | append_singleton rs r ih =>
    obtain ⟨hwithin, hmisses⟩ := ih
    have hsmall := sound_run hs rs
    have hlarge := sound_run hl rs
    have hserves := serves hsmall.holds r
    have hserves' := serves hlarge.holds r
    have hn := hlarge.holds.nodup
    rw [run_append_singleton, run_append_singleton]
    refine ⟨?_, ?_⟩
    · rw [hserves.entries_eq, hserves'.entries_eq, hsmall.maxSize_eq, hlarge.maxSize_eq]
      exact hwithin.entriesAfter hle hn r
    · rw [hserves.misses_eq, hserves'.misses_eq]
      exact Nat.add_le_add hmisses (hwithin.missesOf_le hn r)

/-- After every run the entries of a smaller cache are among those of a larger one, in the same
order and with the same values.  So what hits in the smaller cache hits in the larger one with the
same value, and the larger one has not missed more often. -/
theorem inclusion_of_run {n m : UInt64} {small large : RecencyCache V} (hs : new n = .ok small)
    (hl : new m = .ok large) (hle : n ≤ m) (rs : List (LocalRequest V)) :
    (small.run rs).entries.Sublist (large.run rs).entries ∧
    (∀ key v, ((small.run rs).get key).1 = some v → ((large.run rs).get key).1 = some v) ∧
    (large.run rs).metrics.misses ≤ (small.run rs).metrics.misses := by
  obtain ⟨hwithin, hmisses⟩ := within_run hs hl hle rs
  have hsmall := (sound_run hs rs).holds
  have hlarge := (sound_run hl rs).holds
  refine ⟨hwithin.sublist, fun key v hit => ?_, hmisses⟩
  rw [get_fst_eq hsmall] at hit
  obtain ⟨e, he, rfl⟩ := Option.map_eq_some_iff.1 hit
  rw [get_fst_eq hlarge, entryFor_of_sublist hwithin.sublist hlarge.nodup he, Option.map_some]

/-- Requests after which a cache for three entries has one that a cache for two has lost, and the
two hold the others in the same order although only the larger one had a hit. -/
def driftingRequests : List (LocalRequest Nat) :=
  [.set "a" 1 1, .set "b" 2 1, .set "c" 3 1, .get "a", .delete "b", .set "d" 4 1]

theorem inclusion_of_run_after_drift :
    ∃ small large : RecencyCache Nat, new 2 = .ok small ∧ new 3 = .ok large ∧
      (small.run driftingRequests).entries.map Entry.key = ["d", "c"] ∧
      (large.run driftingRequests).entries.map Entry.key = ["d", "a", "c"] ∧
      (small.run driftingRequests).entries.Sublist (large.run driftingRequests).entries ∧
      ((large.run driftingRequests).get "c").1 = some 3 ∧
      (large.run driftingRequests).metrics.misses ≤
        (small.run driftingRequests).metrics.misses := by
  have hrun := inclusion_of_run (V := Nat) (n := 2) (m := 3) rfl rfl (by decide) driftingRequests
  exact ⟨_, _, rfl, rfl, by decide +kernel, by decide +kernel, hrun.1,
    hrun.2.1 "c" 3 (by decide +kernel), hrun.2.2⟩

end PodCache.RecencyCache
