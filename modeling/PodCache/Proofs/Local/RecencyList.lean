import Mathlib.Tactic
import PodCache.Local.RecencyList

/-!
# The entries of recency lists

A recency list `l` holds a list of entries, the most recently used first (`Holds l es`).  Each
operation does to the entries what its name says, and answers what they tell.  The total is the sum
of the costs as long as no sum was too great for a word.
-/

namespace PodCache.RecencyList

variable {α : Type}

/-- The key of the entry not used for the longest time. -/
def lastKey (es : List (Entry α)) : Option String := es.getLast?.map Entry.key

/-- The entry that is found under a key. -/
def find? (l : RecencyList α) (key : String) : Option (Entry α) :=
  l.chain.lookup[key]?.bind fun i => (l.chain.nodes.get? i).map RecencyChain.Node.toEntry

/-- The cost of the entry for a key. -/
def cost? (l : RecencyList α) (key : String) : Option Nat := (l.find? key).map Entry.cost

/-- The entries of a list, the most recently used first. -/
def Holds (l : RecencyList α) (es : List (Entry α)) : Prop :=
  ∃ ps, l.chain.Holds ps ∧ ps.map Prod.snd = es

variable {l l' : RecencyList α} {es es' : List (Entry α)} {e : Entry α} {key : String}

/-! ## Sums of costs -/

theorem costSum_le_of_sublist (h : es.Sublist es') : costSum es ≤ costSum es' := by
  induction h with
  | slnil => exact le_rfl
  | cons e _ ih => exact ih.trans (Nat.le_add_left _ _)
  | cons_cons e _ ih => exact Nat.add_le_add_left ih _

@[simp]
theorem costSum_reverse (es : List (Entry α)) : costSum es.reverse = costSum es :=
  costSum_perm es.reverse_perm

/-- Entries that cost one each cost their number. -/
theorem costSum_of_unit (h : ∀ e ∈ es, e.cost = 1) : costSum es = es.length := by
  induction es with
  | nil => rfl
  | cons e es ih =>
    rw [List.forall_mem_cons] at h
    rw [costSum_cons, h.1, ih h.2, List.length_cons, Nat.add_comm]

/-! ## The last key -/

@[simp] theorem lastKey_nil : lastKey ([] : List (Entry α)) = none := rfl

theorem lastKey_append (es es' : List (Entry α)) :
    lastKey (es ++ es') = (lastKey es').or (lastKey es) := by
  rw [lastKey, List.getLast?_append, lastKey, lastKey]
  cases es'.getLast? <;> rfl

theorem lastKey_cons (e : Entry α) (es : List (Entry α)) :
    lastKey (e :: es) = (lastKey es).or (some e.key) := lastKey_append [e] es

theorem lastKey_eq_none_iff : lastKey es = none ↔ es = [] := by
  simp [lastKey]

/-! ## What is held -/

theorem exists_holds (l : RecencyList α) : ∃ es, l.Holds es := by
  obtain ⟨ps, hps⟩ := l.sound
  exact ⟨_, ps, hps, rfl⟩

theorem holds_empty : (empty : RecencyList α).Holds [] := ⟨[], RecencyChain.holds_empty, rfl⟩

theorem holds_clear (l : RecencyList α) : l.clear.Holds [] := ⟨[], l.chain.holds_clear, rfl⟩

theorem Holds.nodup (h : l.Holds es) : (es.map Entry.key).Nodup := by
  obtain ⟨ps, hps, rfl⟩ := h
  exact hps.nodupKeys

theorem Holds.find?_eq (h : l.Holds es) (key : String) : l.find? key = entryFor es key := by
  obtain ⟨ps, hps, rfl⟩ := h
  rw [find?]
  cases hk : l.chain.lookup[key]? with
  | none => exact (entryFor_eq_none_iff.2 (hps.lookup_eq_none_iff.1 hk)).symm
  | some i =>
    obtain ⟨pre, e, post, rfl, rfl⟩ := hps.split hk
    rw [hps.entryFor_eq, Option.bind_some, hps.segment.get?]
    rfl

theorem Holds.contains_iff (h : l.Holds es) : l.contains key = true ↔ key ∈ es.map Entry.key := by
  obtain ⟨ps, hps, rfl⟩ := h
  have hnone : l.chain.lookup[key]? = none ↔ key ∉ (ps.map Prod.snd).map Entry.key :=
    hps.lookup_eq_none_iff
  rw [contains, RecencyChain.contains, Std.TreeMap.contains_eq_isSome_getElem?,
    Option.isSome_iff_ne_none, ne_eq, hnone, not_not]

theorem Holds.contains_eq (h : l.Holds es) (key : String) :
    l.contains key = (entryFor es key).isSome := by
  rw [Bool.eq_iff_iff, h.contains_iff, Option.isSome_iff_ne_none, ne_eq, entryFor_eq_none_iff,
    not_not]

/-- A list that has no entry for a key holds the entries without it. -/
theorem Holds.of_not_mem (h : l.Holds es) (hk : key ∉ es.map Entry.key) :
    l.Holds (without es key) := by
  rwa [without_of_not_mem hk]

theorem Holds.cost?_eq_none_iff (h : l.Holds es) : l.cost? key = none ↔ key ∉ es.map Entry.key := by
  rw [cost?, Option.map_eq_none_iff, h.find?_eq, entryFor_eq_none_iff]

theorem Holds.cost?_eq_some_iff (h : l.Holds es) {cost : Nat} :
    l.cost? key = some cost ↔ ∃ e ∈ es, e.key = key ∧ e.cost = cost := by
  simp only [cost?, h.find?_eq, Option.map_eq_some_iff, entryFor_eq_some_iff h.nodup, and_assoc]

/-- There is one key in the lookup table for each entry. -/
theorem Holds.size_eq (h : l.Holds es) : l.size = es.length := by
  have hperm : l.chain.lookup.keys.Perm (es.map Entry.key) := by
    rw [List.perm_ext_iff_of_nodup Std.TreeMap.nodup_keys h.nodup]
    intro key
    rw [Std.TreeMap.mem_keys, ← h.contains_iff]
    rfl
  rw [size, RecencyChain.size, ← Std.TreeMap.length_keys, hperm.length_eq, List.length_map]

/-! ## Operations -/

theorem Holds.pushFront (h : l.Holds es) (key : String) (value : α) (cost : Nat) :
    (l.pushFront key value cost).2.Holds (⟨key, value, cost⟩ :: without es key) := by
  obtain ⟨ps, hps, rfl⟩ := h
  obtain ⟨c', qs, hc, hqs, hes, -⟩ := hps.exists_pushFront key value cost
  rw [l.chain_pushFront, Option.some.injEq, Prod.mk.injEq] at hc
  exact ⟨qs, hc.2 ▸ hqs, hes⟩

theorem Holds.touch_snd (h : l.Holds es) (key : String) :
    (l.touch key).2.Holds ((entryFor es key).toList ++ without es key) := by
  obtain ⟨ps, hps, rfl⟩ := h
  obtain ⟨c', qs, hc, hqs, hes, -⟩ := hps.exists_touch key
  rw [l.chain_touch, Option.some.injEq, Prod.mk.injEq] at hc
  exact ⟨qs, hc.2 ▸ hqs, hes⟩

theorem Holds.touch_fst (h : l.Holds es) (key : String) :
    (l.touch key).1 = (entryFor es key).map Entry.value := by
  obtain ⟨ps, hps, rfl⟩ := h
  obtain ⟨c', qs, hc, -⟩ := hps.exists_touch key
  rw [l.chain_touch, Option.some.injEq, Prod.mk.injEq] at hc
  exact hc.1

/-- Using an entry brings it to the front. -/
theorem Holds.touch (h : l.Holds es) (he : e ∈ es) :
    (l.touch e.key).2.Holds (e :: without es e.key) := by
  have htouch := h.touch_snd e.key
  rwa [(entryFor_eq_some_iff h.nodup).2 ⟨he, rfl⟩] at htouch

theorem Holds.peekBack_eq (h : l.Holds es) : l.peekBack = lastKey es := by
  obtain ⟨ps, hps, rfl⟩ := h
  have hc := hps.peekBack_eq
  rw [l.chain_peekBack] at hc
  exact Option.some.inj hc

theorem Holds.remove_eq_none_iff (h : l.Holds es) :
    l.remove key = none ↔ key ∉ es.map Entry.key := by
  obtain ⟨ps, hps, rfl⟩ := h
  have hc := l.chain_remove key
  constructor
  · intro hr hk
    cases hl : l.chain.lookup[key]? with
    | none => exact hps.lookup_eq_none_iff.1 hl hk
    | some i =>
      obtain ⟨pre, e, post, rfl, rfl⟩ := hps.split hl
      obtain ⟨c', hc', -⟩ := hps.exists_remove
      rw [hr, hc'] at hc
      cases Option.some.inj hc
  · intro hk
    rw [hps.remove_of_not_mem hk] at hc
    exact Option.map_eq_none_iff.1 (Option.some.inj hc).symm

theorem Holds.of_remove (h : l.Holds es) (hr : l.remove key = some (e, l')) :
    e ∈ es ∧ e.key = key ∧ l'.Holds (without es key) := by
  have hk : key ∈ es.map Entry.key := by
    by_contra hk
    rw [h.remove_eq_none_iff.2 hk] at hr
    cases hr
  obtain ⟨ps, hps, rfl⟩ := h
  cases hl : l.chain.lookup[key]? with
  | none => exact absurd hk (hps.lookup_eq_none_iff.1 hl)
  | some i =>
    obtain ⟨pre, d, post, rfl, rfl⟩ := hps.split hl
    obtain ⟨c', hc', hrest, -⟩ := hps.exists_remove
    have hc := l.chain_remove d.key
    rw [hr, hc'] at hc
    obtain ⟨rfl, rfl⟩ := Prod.mk.inj (Option.some.inj (Option.some.inj hc))
    exact ⟨by simp, rfl, _, hrest, hps.without_eq.symm⟩

theorem Holds.popBack_eq_none_iff (h : l.Holds es) : l.popBack = none ↔ es = [] := by
  obtain ⟨ps, hps, rfl⟩ := h
  have hc := l.chain_popBack
  rcases List.eq_nil_or_concat ps with rfl | ⟨front, ⟨i, d⟩, rfl⟩
  · rw [hps.popBack_nil] at hc
    have hnone := Option.map_eq_none_iff.1 (Option.some.inj hc).symm
    exact ⟨fun _ => rfl, fun _ => hnone⟩
  · rw [List.concat_eq_append] at hps ⊢
    obtain ⟨c', hc', -⟩ := hps.exists_popBack
    rw [hc'] at hc
    constructor
    · intro hp
      rw [hp] at hc
      cases Option.some.inj hc
    · intro hnil
      simp at hnil

/-- The entry that is taken out is the last one. -/
theorem Holds.of_popBack (h : l.Holds es) (hp : l.popBack = some (e, l')) :
    ∃ front, es = front ++ [e] ∧ l'.Holds front := by
  have hnil : es ≠ [] := fun hnil => by
    rw [h.popBack_eq_none_iff.2 hnil] at hp
    cases hp
  obtain ⟨ps, hps, rfl⟩ := h
  rcases List.eq_nil_or_concat ps with rfl | ⟨front, ⟨i, d⟩, rfl⟩
  · exact absurd rfl hnil
  · rw [List.concat_eq_append] at hps ⊢
    obtain ⟨c', hc', hfront, -⟩ := hps.exists_popBack
    have hc := l.chain_popBack
    rw [hp, hc'] at hc
    obtain ⟨rfl, rfl⟩ := Prod.mk.inj (Option.some.inj (Option.some.inj hc))
    exact ⟨front.map Prod.snd, by simp, front, hfront, rfl⟩

/-! ## Totals -/

theorem Holds.totalCost_le (h : l.Holds es) : l.totalCost ≤ costSum es := by
  obtain ⟨ps, hps, rfl⟩ := h
  exact hps.totalCost_le

@[simp] theorem totalCost_touch (l : RecencyList α) (key : String) :
    (l.touch key).2.totalCost = l.totalCost := by
  obtain ⟨ps, hps⟩ := l.sound
  obtain ⟨c', qs, hc, -, -, htotal, -⟩ := hps.exists_touch key
  rw [l.chain_touch, Option.some.injEq, Prod.mk.injEq] at hc
  rw [totalCost, hc.2]
  exact htotal

@[simp] theorem overflowed_touch (l : RecencyList α) (key : String) :
    (l.touch key).2.overflowed = l.overflowed := by
  obtain ⟨ps, hps⟩ := l.sound
  obtain ⟨c', qs, hc, -, -, -, hflag⟩ := hps.exists_touch key
  rw [l.chain_touch, Option.some.injEq, Prod.mk.injEq] at hc
  rw [overflowed, hc.2]
  exact hflag

theorem totals_of_remove (hr : l.remove key = some (e, l')) :
    l'.totalCost = l.totalCost - e.cost ∧ l'.overflowed = l.overflowed := by
  obtain ⟨ps, hps⟩ := l.sound
  have hc := l.chain_remove key
  rw [hr] at hc
  cases hl : l.chain.lookup[key]? with
  | none =>
    rw [hps.remove_of_not_mem (hps.lookup_eq_none_iff.1 hl)] at hc
    cases Option.some.inj hc
  | some i =>
    obtain ⟨pre, d, post, rfl, rfl⟩ := hps.split hl
    obtain ⟨c', hc', -, htotals⟩ := hps.exists_remove
    rw [hc'] at hc
    obtain ⟨rfl, rfl⟩ := Prod.mk.inj (Option.some.inj (Option.some.inj hc))
    exact htotals

theorem totals_of_popBack (hp : l.popBack = some (e, l')) :
    l'.totalCost = l.totalCost - e.cost ∧ l'.overflowed = l.overflowed := by
  obtain ⟨ps, hps⟩ := l.sound
  have hc := l.chain_popBack
  rw [hp] at hc
  rcases List.eq_nil_or_concat ps with rfl | ⟨front, ⟨i, d⟩, rfl⟩
  · rw [hps.popBack_nil] at hc
    cases Option.some.inj hc
  · rw [List.concat_eq_append] at hps
    obtain ⟨c', hc', -, htotal, hflag, -⟩ := hps.exists_popBack
    rw [hc'] at hc
    obtain ⟨rfl, rfl⟩ := Prod.mk.inj (Option.some.inj (Option.some.inj hc))
    exact ⟨htotal, hflag⟩

/-! ## Sums that fit -/

theorem Holds.totalCost (h : l.Holds es) (hl : l.overflowed = false) :
    l.totalCost = costSum es := by
  obtain ⟨ps, hps, rfl⟩ := h
  exact hps.totalCost hl

theorem Holds.costSum_lt (h : l.Holds es) (hl : l.overflowed = false) :
    costSum es < UInt64.size := by
  rw [← h.totalCost hl]
  obtain ⟨ps, hps, rfl⟩ := h
  exact hps.totalCost_lt

theorem Holds.pushFront_overflowed (h : l.Holds es) (key : String) (value : α) (cost : Nat) :
    (l.pushFront key value cost).2.overflowed =
      (l.overflowed ||
        Word.overflows (l.totalCost - (entryFor es key).elim 0 Entry.cost) cost) := by
  obtain ⟨ps, hps, rfl⟩ := h
  obtain ⟨c', qs, hc, -, -, hflag⟩ := hps.exists_pushFront key value cost
  rw [l.chain_pushFront, Option.some.injEq, Prod.mk.injEq] at hc
  rw [overflowed, hc.2]
  exact hflag

/-- The cost of the entry for a key is part of the sum. -/
theorem costSum_eq_add_without (h : (es.map Entry.key).Nodup) (key : String) :
    costSum es = (entryFor es key).elim 0 Entry.cost + costSum (without es key) := by
  rw [← costSum_perm (entryFor_append_without_perm h key), costSum_append]
  cases entryFor es key <;> rfl

/-- A new cost fits if it fits beside those for other keys. -/
theorem Holds.pushFront_overflowed_eq_false_iff (h : l.Holds es) (hl : l.overflowed = false)
    (key : String) (value : α) (cost : Nat) :
    (l.pushFront key value cost).2.overflowed = false ↔
      cost + costSum (without es key) < UInt64.size := by
  rw [h.pushFront_overflowed, hl, Bool.false_or, Word.overflows_eq_false_iff, h.totalCost hl,
    costSum_eq_add_without h.nodup key, Nat.add_sub_cancel_left, Nat.add_comm]

theorem overflowed_of_pushFront {value : α} {cost : Nat}
    (h : (l.pushFront key value cost).2.overflowed = false) : l.overflowed = false := by
  obtain ⟨es, hes⟩ := l.exists_holds
  rw [hes.pushFront_overflowed, Bool.or_eq_false_iff] at h
  exact h.1

end PodCache.RecencyList
