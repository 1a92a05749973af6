import PodCache.Proofs.Local.Capacity

/-!
# Sums of costs that fit

The totals of a policy are the sums of the costs that it tracks as long as no sum was too great for
a word (`Admission.SumsFit`).  A sum that was too great stays noted, so that it is enough to look at
the end of a run (`overflowed_of_offer` and its siblings).  No sum is too great as long as the costs
of all tracked keys together are not (`Tracks.overflowed_offer` and its siblings).
-/

namespace PodCache

open RecencyList (without costSum)

namespace Admission

variable {p : Admission} {s : Segments} {es : List (Entry Unit)} {key : String} {cost : Nat}

/-- No sum of costs has been too great for a word, nor is the cost of all tracked keys. -/
def SumsFit (p : Admission) : Prop := p.overflowed = false ∧ p.totalOverflows = false

theorem overflowed_eq_false_iff :
    p.overflowed = false ↔ p.sumOverflowed = false ∧ p.window.overflowed = false ∧
      p.probation.overflowed = false ∧ p.protection.overflowed = false := by
  simp only [overflowed, Bool.or_eq_false_iff, and_assoc]

/-- The cost of all tracked keys is noted when it is asked for. -/
theorem overflowed_noteSum_total_eq_false_iff :
    (p.noteSum p.totalOverflows).overflowed = false ↔ p.SumsFit := by
  rw [SumsFit, overflowed_eq_false_iff, overflowed_eq_false_iff]
  simp only [noteSum, Bool.or_eq_false_iff]
  tauto

/-- The segments tell their costs. -/
theorem Holds.totals (h : p.Holds s) (hp : p.overflowed = false) :
    p.window.totalCost = costSum s.window ∧ p.probation.totalCost = costSum s.probation ∧
      p.protection.totalCost = costSum s.protection := by
  obtain ⟨-, hw, hb, ht⟩ := overflowed_eq_false_iff.1 hp
  exact ⟨h.window.totalCost hw, h.probation.totalCost hb, h.protection.totalCost ht⟩

theorem Holds.totalOverflows_eq_false_iff (h : p.Holds s) (hp : p.overflowed = false) :
    p.totalOverflows = false ↔ costSum s.all < UInt64.size := by
  obtain ⟨hw, hb, ht⟩ := h.totals hp
  rw [totalOverflows, Bool.or_eq_false_iff, Word.overflows_eq_false_iff,
    Word.overflows_eq_false_iff, hw, hb, ht, costSum_all]
  constructor
  · rintro ⟨hfirst, hall⟩
    rwa [Word.add_eq hfirst] at hall
  · intro hall
    have hfirst : costSum s.window + costSum s.probation < UInt64.size := by omega
    rw [Word.add_eq hfirst]
    exact ⟨hfirst, hall⟩

theorem Tracks.costSum_lt (h : p.Tracks es) (hp : p.SumsFit) : costSum es < UInt64.size := by
  obtain ⟨s, hs, hes⟩ := h
  rw [← RecencyList.costSum_perm hes]
  exact (hs.totalOverflows_eq_false_iff hp.1).1 hp.2

theorem Tracks.totalCost_of_lt (h : p.Tracks es) (hp : p.overflowed = false)
    (hlt : costSum es < UInt64.size) : p.totalCost = costSum es := by
  obtain ⟨s, hs, hes⟩ := h
  obtain ⟨hw, hb, ht⟩ := hs.totals hp
  rw [← RecencyList.costSum_perm hes, costSum_all] at hlt ⊢
  have hfirst : costSum s.window + costSum s.probation < UInt64.size := by omega
  rw [Admission.totalCost, hw, hb, ht, Word.add_eq hfirst, Word.add_eq hlt]

theorem Tracks.totalCost (h : p.Tracks es) (hp : p.SumsFit) : p.totalCost = costSum es :=
  h.totalCost_of_lt hp.1 (h.costSum_lt hp)

/-! ## What is noted stays noted -/

theorem overflowed_noteSum (p : Admission) (overflows : Bool) :
    (p.noteSum overflows).overflowed = (p.overflowed || overflows) := by
  simp only [noteSum, overflowed, Bool.or_assoc, Bool.or_comm overflows]

theorem overflowed_of_demoteOverflow (h : p.demoteOverflow.overflowed = false) :
    p.overflowed = false := by
  fun_induction Admission.demoteOverflow p with
  | case1 p => exact h
  | case2 p _ e rest hp ih =>
    obtain ⟨hsum, hw, hb, ht⟩ := overflowed_eq_false_iff.1 (ih h)
    rw [(RecencyList.totals_of_popBack hp).2] at ht
    exact overflowed_eq_false_iff.2 ⟨hsum, hw, RecencyList.overflowed_of_pushFront hb, ht⟩
  | case3 p => exact h

/-- Taking out the oldest key of the window notes no less than before. -/
theorem overflowed_of_competing {e : Entry Unit} {rest : RecencyList Unit}
    (hpop : p.window.popBack = some (e, rest)) (h : (p.competing rest e.cost).overflowed = false) :
    p.overflowed = false := by
  obtain ⟨hsum, hw, hb, ht⟩ := overflowed_eq_false_iff.1 h
  rw [competing, noteSum, Bool.or_eq_false_iff] at hsum
  have hw : rest.overflowed = false := hw
  rw [(RecencyList.totals_of_popBack hpop).2] at hw
  exact overflowed_eq_false_iff.2 ⟨hsum.1, hw, hb, ht⟩

theorem overflowed_of_drainWindow (h : p.drainWindow.2.overflowed = false) :
    p.overflowed = false := by
  fun_induction Admission.drainWindow p with
  | case1 p => exact h
  | case2 p _ e rest hp _ ih =>
    obtain ⟨hsum, hw, hb, ht⟩ := overflowed_eq_false_iff.1 (ih h)
    exact overflowed_of_competing hp
      (overflowed_eq_false_iff.2 ⟨hsum, hw, RecencyList.overflowed_of_pushFront hb, ht⟩)
  | case3 p _ e rest hp _ rejected q heq ih =>
    rw [heq] at ih
    exact overflowed_of_competing hp (ih h)
  | case4 p => exact h

theorem overflowed_of_protect (h : (p.protect key cost).overflowed = false) :
    p.overflowed = false := by
  obtain ⟨hsum, hw, hb, ht⟩ := overflowed_eq_false_iff.1 (overflowed_of_demoteOverflow h)
  exact overflowed_eq_false_iff.2 ⟨hsum, hw, hb, RecencyList.overflowed_of_pushFront ht⟩

/-- A policy and the one without a key on probation have noted the same. -/
theorem overflowed_withoutProbation {e : Entry Unit} {rest : RecencyList Unit}
    (hr : p.probation.remove key = some (e, rest)) :
    { p with probation := rest }.overflowed = p.overflowed := by
  unfold overflowed
  rw [(RecencyList.totals_of_remove hr).2]

theorem overflowed_of_recordReads {count : Nat}
    (h : (p.recordReads key count).overflowed = false) : p.overflowed = false := by
  unfold Admission.recordReads at h
  dsimp only at h
  split_ifs at h
  · rwa [overflowed, RecencyList.overflowed_touch] at h
  · rwa [overflowed, RecencyList.overflowed_touch] at h
  · split at h
    · rename_i e rest hr
      have htaken := overflowed_of_protect h
      exact (overflowed_withoutProbation hr).symm.trans htaken
    · exact h

theorem overflowed_of_offer (h : (p.offer key cost).2.overflowed = false) :
    p.overflowed = false := by
  unfold Admission.offer at h
  dsimp only at h
  split_ifs at h
  · exact overflowed_of_protect (p := p.counted key 1) h
  · split at h
    · rename_i e rest hr
      have htaken := overflowed_of_protect (p := { p.counted key 1 with probation := rest }) h
      exact (overflowed_withoutProbation hr).symm.trans htaken
    · obtain ⟨hsum, hw, hb, ht⟩ := overflowed_eq_false_iff.1 (overflowed_of_drainWindow h)
      exact overflowed_eq_false_iff.2 ⟨hsum, RecencyList.overflowed_of_pushFront hw, hb, ht⟩

@[simp] theorem overflowed_remove (p : Admission) (key : String) :
    (p.remove key).2.overflowed = p.overflowed := by
  unfold Admission.remove
  split
  · rename_i hr
    rw [overflowed, (RecencyList.totals_of_remove hr).2]
    rfl
  · split
    · rename_i hr
      exact overflowed_withoutProbation hr
    · split
      · rename_i hr
        rw [overflowed, (RecencyList.totals_of_remove hr).2]
        rfl
      · rfl

theorem overflowed_free (l : RecencyList Unit) (need freed : Nat) :
    (free l need freed).2.overflowed = l.overflowed := by
  fun_induction free l need freed with
  | case1 l => rfl
  | case2 l freed _ e rest hp victims left heq ih =>
    rw [heq] at ih
    exact ih.trans (RecencyList.totals_of_popBack hp).2
  | case3 l => rfl

/-- An eviction notes whether the cost that it frees is too great. -/
theorem overflowed_evict (p : Admission) (need : Nat) :
    (p.evict need).2.overflowed = (p.overflowed || freeingOverflows 0 (p.evict need).1) := by
  unfold Admission.evict
  simp only [overflowed_noteSum]
  congr 1
  simp only [overflowed, overflowed_free]

theorem overflowed_of_evict {need : Nat} (h : (p.evict need).2.overflowed = false) :
    p.overflowed = false := by
  rw [overflowed_evict, Bool.or_eq_false_iff] at h
  exact h.1

@[simp] theorem overflowed_clear (p : Admission) : p.clear.overflowed = p.overflowed := rfl

/-! ## Costs that fit together -/

theorem Tracks.sumsFit (h : p.Tracks es) (hp : p.overflowed = false)
    (hlt : costSum es < UInt64.size) : p.SumsFit := by
  obtain ⟨s, hs, hes⟩ := h
  refine ⟨hp, (hs.totalOverflows_eq_false_iff hp).2 ?_⟩
  rwa [RecencyList.costSum_perm hes]

/-- An entry of another segment fits into one as long as all fit together. -/
theorem overflowed_pushFront_of_lt {l : RecencyList Unit} (h : l.Holds es)
    (hl : l.overflowed = false) (hlt : cost + costSum es < UInt64.size) :
    (l.pushFront key () cost).2.overflowed = false := by
  have hle := RecencyList.costSum_le_of_sublist (List.filter_sublist (l := es)
    (p := fun e => e.key ≠ key))
  exact (h.pushFront_overflowed_eq_false_iff hl key () cost).2
    (Nat.lt_of_le_of_lt (Nat.add_le_add_left hle cost) hlt)

theorem Holds.overflowed_demoteOverflow (h : p.Holds s) (hp : p.overflowed = false)
    (hlt : costSum s.all < UInt64.size) : p.demoteOverflow.overflowed = false := by
  fun_induction Admission.demoteOverflow p generalizing s with
  | case1 p => exact hp
  | case2 p _ e rest hpop ih =>
    obtain ⟨front, hfront, hs⟩ := h.demoteOldest hpop
    obtain ⟨hsum, hw, hb, ht⟩ := overflowed_eq_false_iff.1 hp
    rw [costSum_all, hfront, RecencyList.costSum_append, RecencyList.costSum_cons,
      RecencyList.costSum_nil] at hlt
    refine ih hs (overflowed_eq_false_iff.2 ⟨hsum, hw, ?_, ?_⟩) ?_
    · exact overflowed_pushFront_of_lt h.probation hb (by omega)
    · exact (RecencyList.totals_of_popBack hpop).2.trans ht
    · simp only [costSum_all, RecencyList.costSum_cons]
      omega
  | case3 p => exact hp

/-- The oldest key of the window may compete without a sum that is too great. -/
theorem Holds.overflowed_competing {e : Entry Unit} {rest : RecencyList Unit} (h : p.Holds s)
    (hpop : p.window.popBack = some (e, rest)) (hp : p.overflowed = false)
    (hlt : costSum s.all < UInt64.size) : (p.competing rest e.cost).overflowed = false := by
  obtain ⟨front, hfront, -⟩ := h.popWindow hpop
  obtain ⟨hsum, hw, hb, ht⟩ := overflowed_eq_false_iff.1 hp
  obtain ⟨-, htotalb, htotalt⟩ := h.totals hp
  rw [costSum_all, hfront, RecencyList.costSum_append, RecencyList.costSum_cons,
    RecencyList.costSum_nil] at hlt
  have hmain : costSum s.probation + costSum s.protection < UInt64.size := by omega
  have hcompete : p.mainOverflows e.cost = false := by
    rw [mainOverflows, mainCost, htotalb, htotalt, Word.add_eq hmain, Bool.or_eq_false_iff,
      Word.overflows_eq_false_iff, Word.overflows_eq_false_iff]
    exact ⟨hmain, by omega⟩
  rw [competing, hcompete, noteSum_false]
  exact overflowed_eq_false_iff.2
    ⟨hsum, (RecencyList.totals_of_popBack hpop).2.trans hw, hb, ht⟩

theorem Holds.overflowed_drainWindow (h : p.Holds s) (hp : p.overflowed = false)
    (hlt : costSum s.all < UInt64.size) : p.drainWindow.2.overflowed = false := by
  fun_induction Admission.drainWindow p generalizing s with
  | case1 p => exact hp
  | case2 p _ e rest hpop _ ih =>
    obtain ⟨hsum, hw, hb, ht⟩ := overflowed_eq_false_iff.1 (h.overflowed_competing hpop hp hlt)
    obtain ⟨front, hfront, hs⟩ := h.acceptOldest hpop
    rw [costSum_all, hfront, RecencyList.costSum_append, RecencyList.costSum_cons,
      RecencyList.costSum_nil] at hlt
    refine ih hs (overflowed_eq_false_iff.2 ⟨hsum, hw, ?_, ht⟩) ?_
    · exact overflowed_pushFront_of_lt h.probation hb (by omega)
    · simp only [costSum_all, RecencyList.costSum_cons]
      omega
  | case3 p _ e rest hpop _ rejected q heq ih =>
    have hnext := h.overflowed_competing hpop hp hlt
    obtain ⟨front, hfront, hs⟩ := h.rejectOldest hpop
    rw [costSum_all, hfront, RecencyList.costSum_append] at hlt
    rw [heq] at ih
    refine ih hs hnext ?_
    simp only [costSum_all]
    omega
  | case4 p => exact hp

theorem Holds.overflowed_protect (h : p.Holds s) (hp : p.overflowed = false)
    (hk : key ∉ (s.window ++ s.probation).map Entry.key)
    (hlt : cost + costSum (without s.all key) < UInt64.size) :
    (p.protect key cost).overflowed = false := by
  obtain ⟨hsum, hw, hb, ht⟩ := overflowed_eq_false_iff.1 hp
  have hkeys := hk
  rw [List.map_append, List.mem_append, not_or] at hkeys
  rw [Segments.all, RecencyList.without_append, RecencyList.without_append,
    RecencyList.without_of_not_mem hkeys.1, RecencyList.without_of_not_mem hkeys.2,
    RecencyList.costSum_append, RecencyList.costSum_append] at hlt
  refine (h.pushProtection cost hk).overflowed_demoteOverflow
    (overflowed_eq_false_iff.2 ⟨hsum, hw, hb, ?_⟩) ?_
  · exact (h.protection.pushFront_overflowed_eq_false_iff ht key () cost).2 (by omega)
  · simp only [costSum_all, RecencyList.costSum_cons]
    omega

theorem Holds.overflowed_protect_probation {e : Entry Unit} {rest : RecencyList Unit}
    (h : p.Holds s) (hp : p.overflowed = false) (hr : p.probation.remove key = some (e, rest))
    (hlt : cost + costSum (without s.all key) < UInt64.size) :
    (Admission.protect { p with probation := rest } key cost).overflowed = false := by
  obtain ⟨-, -, htaken, hne, -⟩ := h.takeFromProbation hr
  refine htaken.overflowed_protect ((overflowed_withoutProbation hr).trans hp) hne ?_
  rwa [Segments.all, RecencyList.without_append, RecencyList.without_append,
    RecencyList.without_without, ← RecencyList.without_append, ← RecencyList.without_append]

/-- Reads take no sum that is too great. -/
theorem Tracks.overflowed_recordReads (h : p.Tracks es) (hp : p.overflowed = false)
    (hlt : costSum es < UInt64.size) (key : String) (count : Nat) :
    (p.recordReads key count).overflowed = false := by
  obtain ⟨s, hs, hes⟩ := h
  have hc := hs.counted key (min count maxReads)
  rw [← RecencyList.costSum_perm hes] at hlt
  unfold Admission.recordReads
  dsimp only
  split_ifs
  · rwa [overflowed, RecencyList.overflowed_touch]
  · rwa [overflowed, RecencyList.overflowed_touch]
  · split
    · rename_i e rest hr
      refine hc.overflowed_protect_probation hp hr ?_
      obtain ⟨he, hk, -⟩ := hs.takeFromProbation hr
      have hfound : RecencyList.entryFor s.all key = some e :=
        (RecencyList.entryFor_eq_some_iff hs.nodup).2 ⟨by simp [Segments.all, he], hk⟩
      rwa [RecencyList.costSum_eq_add_without hs.nodup key, hfound] at hlt
    · exact hp

theorem Holds.overflowed_pushed (h : p.Holds s) (hp : p.overflowed = false)
    (hlt : cost + costSum (without s.all key) < UInt64.size) :
    (p.pushed key cost).overflowed = false := by
  obtain ⟨hsum, hw, hb, ht⟩ := overflowed_eq_false_iff.1 hp
  rw [Segments.all, RecencyList.without_append, RecencyList.without_append,
    RecencyList.costSum_append, RecencyList.costSum_append] at hlt
  refine overflowed_eq_false_iff.2 ⟨hsum, ?_, hb, ht⟩
  exact (h.window.pushFront_overflowed_eq_false_iff hw key () cost).2 (by omega)

/-- An offered cost that fits beside the costs of the other keys takes no sum that is too great. -/
theorem Tracks.overflowed_offer (h : p.Tracks es) (hp : p.overflowed = false)
    (hlt : cost + costSum (without es key) < UInt64.size) :
    (p.offer key cost).2.overflowed = false := by
  obtain ⟨s, hs, hes⟩ := h
  have hc := hs.counted key 1
  have hperm : (without s.all key).Perm (without es key) := hes.filter _
  rw [← RecencyList.costSum_perm hperm] at hlt
  by_cases ht : key ∈ s.protection.map Entry.key
  · have hoffer : p.offer key cost = ([], (p.counted key 1).protect key cost) :=
      if_pos (hs.protection.contains_iff.2 ht)
    rw [hoffer]
    exact hc.overflowed_protect hp (hs.not_mem_of_protection ht) hlt
  · cases hr : p.probation.remove key with
    | some found =>
      obtain ⟨e, rest⟩ := found
      rw [hs.offer_eq_protect ht hr]
      exact hc.overflowed_protect_probation hp hr hlt
    | none =>
      have hb := hs.probation.remove_eq_none_iff.1 hr
      rw [hs.offer_eq_drainWindow cost hb ht]
      refine (hs.pushed cost hb ht).overflowed_drainWindow (hs.overflowed_pushed hp hlt) ?_
      rw [all_pushed cost hb ht, RecencyList.costSum_cons]
      exact hlt

theorem Tracks.overflowed_evict (h : p.Tracks es) (hp : p.overflowed = false)
    (hlt : costSum es < UInt64.size) (need : Nat) : (p.evict need).2.overflowed = false := by
  obtain ⟨kept, -, hperm, -⟩ := h.evict need
  rw [← RecencyList.costSum_perm hperm, RecencyList.costSum_append] at hlt
  rw [Admission.overflowed_evict, hp, Bool.false_or]
  exact freeingOverflows_eq_false (by omega)

end Admission

end PodCache
