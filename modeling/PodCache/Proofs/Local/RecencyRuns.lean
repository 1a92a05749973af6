import PodCache.Proofs.Local.Freshness
import PodCache.Proofs.Local.RecencyOrder

/-!
# The entries of recency caches

Seen from outside, a recency cache is a list of entries, the most recently used first (`entries`).
A request makes of them what it says (`entriesAfter`): a lookup brings the entry that it finds to
the front, a set puts the new entry there and cuts off what is too much.  The entries also determine
what each request adds to the counts (`Serves`).
-/

namespace PodCache.RecencyCache

open RecencyList (entryFor without)

variable {V : Type} {c c' : RecencyCache V} {es : List (Entry V)} {key : String}

/-- The cache after a request. -/
def serve (c : RecencyCache V) : LocalRequest V → RecencyCache V
  | .get key => (c.get key).2
  | .set key value _ => c.set key value
  | .delete key => c.delete key
  | .clear | .close => c.clear
  | .maintain => c

/-- The cache after a sequence of requests. -/
def run (c : RecencyCache V) (requests : List (LocalRequest V)) : RecencyCache V :=
  requests.foldl serve c

theorem run_append_singleton (c : RecencyCache V) (rs : List (LocalRequest V))
    (r : LocalRequest V) : c.run (rs ++ [r]) = (c.run rs).serve r := by
  simp [run]

/-- The entries of a cache, the most recently used first. -/
def entries (c : RecencyCache V) : List (Entry V) := c.list.toList

/-! ## Requests to plain lists -/

/-- What a request makes of the entries. -/
def entriesAfter (maxSize : Nat) (es : List (Entry V)) : LocalRequest V → List (Entry V)
  | .get key => (entryFor es key).toList ++ without es key
  | .set key value _ => (⟨key, value, 1⟩ :: without es key).take maxSize
  | .delete key => without es key
  | .clear | .close => []
  | .maintain => es

/-- The hits that a request adds. -/
def hitsOf (es : List (Entry V)) : LocalRequest V → Nat
  | .get key => if (entryFor es key).isSome then 1 else 0
  | _ => 0

/-- The misses that a request adds. -/
def missesOf (es : List (Entry V)) : LocalRequest V → Nat
  | .get key => if (entryFor es key).isSome then 0 else 1
  | _ => 0

/-- The evictions that a request adds. -/
def evictionsOf (maxSize : Nat) (es : List (Entry V)) : LocalRequest V → Nat
  | .set key _ _ => (without es key).length + 1 - maxSize
  | _ => 0

/-- A cache after a request. -/
structure Serves (c : RecencyCache V) (r : LocalRequest V) (c' : RecencyCache V) : Prop where
  holds : c'.list.Holds c'.entries
  entries_eq : c'.entries = entriesAfter c.maxSize c.entries r
  maxSize_eq : c'.maxSize = c.maxSize
  hits_eq : c'.hits = c.hits + hitsOf c.entries r
  misses_eq : c'.misses = c.misses + missesOf c.entries r
  evictions_eq : c'.evictions = c.evictions + evictionsOf c.maxSize c.entries r

/-! ## Requests to caches -/

theorem entries_eq (h : c.list.Holds es) : c.entries = es := h.toList_eq

theorem holds_entries (h : c.list.Holds es) : c.list.Holds c.entries := by
  rwa [entries_eq h]

/-- Evicting cuts off what is too much, and counts it. -/
theorem evictOverflow_spec (h : c.list.Holds es) :
    c.evictOverflow.list.Holds (es.take c.maxSize) ∧
      c.evictOverflow = { c with
        list := c.evictOverflow.list
        evictions := c.evictions + (es.length - c.maxSize) } := by
  fun_induction evictOverflow c generalizing es with
  | case1 c hlt hnone =>
    obtain rfl := h.popBack_eq_none_iff.1 hnone
    rw [List.take_nil]
    exact ⟨h, by simp⟩
  | case2 c hlt e l hpop ih =>
    obtain ⟨front, rfl, hfront⟩ := h.of_popBack hpop
    obtain ⟨hholds, heq⟩ := ih hfront
    rw [h.size_eq, List.length_append, List.length_singleton] at hlt
    have hle : c.maxSize ≤ front.length := Nat.le_of_lt_succ hlt
    refine ⟨?_, ?_⟩
    · rwa [List.take_append_of_le_length hle]
    · rw [heq]
      congr 1
      rw [List.length_append, List.length_singleton]
      dsimp only
      omega
  | case3 c hle =>
    rw [h.size_eq, not_lt] at hle
    rw [List.take_of_length_le hle, Nat.sub_eq_zero_of_le hle]
    exact ⟨h, rfl⟩

theorem serves_get (h : c.list.Holds c.entries) (key : String) :
    c.Serves (.get key) (c.get key).2 := by
  have hfst := RecencyList.Holds.touch_fst h key
  have hsnd := h.touch_snd key
  unfold get
  generalize c.list.touch key = touched at hfst hsnd ⊢
  obtain ⟨found, l⟩ := touched
  cases he : entryFor c.entries key with
  | none =>
    rw [he] at hfst
    obtain rfl : found = none := hfst
    exact ⟨holds_entries hsnd, entries_eq hsnd, rfl, by simp [hitsOf, he], by simp [missesOf, he],
      rfl⟩
  | some e =>
    rw [he] at hfst
    obtain rfl : found = some e.value := hfst
    exact ⟨holds_entries hsnd, entries_eq hsnd, rfl, by simp [hitsOf, he], by simp [missesOf, he],
      rfl⟩

theorem serves_set (h : c.list.Holds c.entries) (key : String) (value : V) (cost : Nat) :
    c.Serves (.set key value cost) (c.set key value) := by
  have hpush := h.pushFront key value 1
  obtain ⟨hholds, heq⟩ := evictOverflow_spec
    (c := { c with list := (c.list.pushFront key value 1).2 }) hpush
  rw [← set] at hholds heq
  exact ⟨holds_entries hholds, entries_eq hholds, by rw [heq], by rw [heq]; rfl, by rw [heq]; rfl,
    by rw [heq]; rfl⟩

theorem serves_delete (h : c.list.Holds c.entries) (key : String) :
    c.Serves (.delete key) (c.delete key) := by
  unfold delete
  cases hr : c.list.remove key with
  | none =>
    have hwithout := h.of_not_mem (h.remove_eq_none_iff.1 hr)
    exact ⟨h, entries_eq hwithout, rfl, rfl, rfl, rfl⟩
  | some found =>
    obtain ⟨e, l⟩ := found
    obtain ⟨-, -, hrest⟩ := h.of_remove hr
    exact ⟨holds_entries hrest, entries_eq hrest, rfl, rfl, rfl, rfl⟩

theorem serves_clear (c : RecencyCache V) : c.Serves .clear c.clear ∧ c.Serves .close c.clear := by
  have hempty : c.clear.list.Holds [] := c.list.holds_clear
  exact ⟨⟨holds_entries hempty, entries_eq hempty, rfl, rfl, rfl, rfl⟩,
    ⟨holds_entries hempty, entries_eq hempty, rfl, rfl, rfl, rfl⟩⟩

theorem serves (h : c.list.Holds c.entries) (r : LocalRequest V) : c.Serves r (c.serve r) := by
  cases r with
  | get key => exact serves_get h key
  | set key value cost => exact serves_set h key value cost
  | delete key => exact serves_delete h key
  | clear => exact c.serves_clear.1
  | close => exact c.serves_clear.2
  | maintain => exact ⟨h, rfl, rfl, rfl, rfl, rfl⟩

/-! ## Runs -/

/-- What holds of a cache between two requests. -/
structure Sound (maxSize : Nat) (c : RecencyCache V) : Prop where
  holds : c.list.Holds c.entries
  maxSize_eq : c.maxSize = maxSize
  length_le : c.entries.length ≤ maxSize

theorem length_without_add (h : (es.map Entry.key).Nodup) (key : String) :
    (without es key).length + (if (entryFor es key).isSome then 1 else 0) = es.length := by
  have hperm := (RecencyList.entryFor_append_without_perm h key).length_eq
  rw [List.length_append] at hperm
  cases he : entryFor es key <;> simp [he] at hperm ⊢ <;> omega

theorem length_entriesAfter_le {maxSize : Nat} (h : (es.map Entry.key).Nodup)
    (hle : es.length ≤ maxSize) (r : LocalRequest V) :
    (entriesAfter maxSize es r).length ≤ maxSize := by
  cases r with
  | get key => exact (RecencyList.entryFor_append_without_perm h key).length_eq.trans_le hle
  | set key value cost => exact List.length_take_le _ _
  | delete key => exact (List.length_filter_le _ _).trans hle
  | clear | close => exact Nat.zero_le _
  | maintain => exact hle

theorem Sound.serve {maxSize : Nat} (h : c.Sound maxSize) (r : LocalRequest V) :
    (c.serve r).Sound maxSize := by
  have hserves := serves h.holds r
  refine ⟨hserves.holds, hserves.maxSize_eq.trans h.maxSize_eq, ?_⟩
  rw [hserves.entries_eq, h.maxSize_eq]
  exact length_entriesAfter_le h.holds.nodup h.length_le r

theorem new_eq {maxSize : UInt64} (h : new maxSize = .ok c) :
    c = ⟨.empty, maxSize.toNat, 0, 0, 0⟩ := by
  unfold new at h
  split_ifs at h
  exact (Except.ok.inj h).symm

theorem maxSize_pos {maxSize : UInt64} (h : new maxSize = .ok c) : 0 < maxSize.toNat := by
  unfold new at h
  split_ifs at h with hzero
  exact Nat.pos_of_ne_zero fun h0 => hzero (UInt64.toNat_inj.1 h0)

theorem holds_new {maxSize : UInt64} (h : new maxSize = .ok c) : c.list.Holds [] := by
  obtain rfl := new_eq h
  exact RecencyList.holds_empty

theorem sound_new {maxSize : UInt64} (h : new maxSize = .ok c) : c.Sound maxSize.toNat := by
  have hempty := holds_new h
  refine ⟨holds_entries hempty, congrArg RecencyCache.maxSize (new_eq h), ?_⟩
  rw [entries_eq hempty]
  exact Nat.zero_le _

theorem sound_run {maxSize : UInt64} (h : new maxSize = .ok c) (rs : List (LocalRequest V)) :
    (c.run rs).Sound maxSize.toNat := by
  induction rs using List.reverseRecOn with
  | nil => exact sound_new h
  | append_singleton rs r ih =>
    rw [run_append_singleton]
    exact ih.serve r

/-- A lookup gives the value of the entry for the key. -/
theorem get_fst_eq (h : c.list.Holds c.entries) (key : String) :
    (c.get key).1 = (entryFor c.entries key).map Entry.value := by
  rw [get_fst, ← RecencyList.touch_fst, RecencyList.Holds.touch_fst h]

end PodCache.RecencyCache
