import PodCache.Proofs.Local.Tracking

/-!
# What an eviction takes

The tracked entries have one order in which they are evicted (`Admission.evictionOrder`): those on
probation, the protected ones, those in the window, and in each segment the least recently used
first.  After every run whose sums of costs fit into words an eviction takes the shortest prefix of
this order that costs enough, and each segment keeps its other entries in their order (`Evicts`).
So two evictions in a row take what a single one takes that asks for what the first has freed and
for what the second needs (`evicts_of_run`).
-/

namespace PodCache

open RecencyList (costSum Cuts)

namespace RecencyList

theorem Linked.toList_eq {α : Type} {l : RecencyList α} {es : List (Entry α)}
    (h : l.Linked es) : l.toList = es := by
  obtain ⟨ps, hps, rfl⟩ := h
  exact congrArg (List.map Prod.snd) (hps.older (l.chain.size + 1) (Nat.le_succ _))

end RecencyList

namespace Admission

variable {p q r r' : Admission} {s : Segments} {victims victims' both kept gone : List (Entry Unit)}
  {need more : Nat}

/-- The tracked entries in the order in which they are evicted. -/
def evictionOrder (p : Admission) : List (Entry Unit) :=
  p.probation.toListOldestFirst ++ p.protection.toListOldestFirst ++ p.window.toListOldestFirst

/-- What an eviction makes of a policy. -/
structure Evicts (p : Admission) (need : Nat) (victims : List (Entry Unit)) (q : Admission) :
    Prop where
  /-- The victims are the shortest prefix of the order that costs enough. -/
  cuts : Cuts need p.evictionOrder victims q.evictionOrder
  none_for_nothing : need = 0 → victims = []
  all_for_more : costSum p.evictionOrder < need → victims = p.evictionOrder
  /-- The segments keep all other entries in their order. -/
  window : q.window.Linked (p.window.toList.filter (· ∉ victims))
  probation : q.probation.Linked (p.probation.toList.filter (· ∉ victims))
  protection : q.protection.Linked (p.protection.toList.filter (· ∉ victims))
  /-- Nothing else changes. -/
  frame : ∃ window probation protection, q = { p with window, probation, protection }

/-- The same entries are tracked, in the same segments and order. -/
structure Alike (p q : Admission) : Prop where
  window : p.window.toList = q.window.toList
  probation : p.probation.toList = q.probation.toList
  protection : p.protection.toList = q.protection.toList

/-! ## One eviction -/

theorem Holds.evictionOrder_eq (h : p.Holds s) : p.evictionOrder = s.order := by
  rw [evictionOrder, h.probation.toListOldestFirst_eq, h.protection.toListOldestFirst_eq,
    h.window.toListOldestFirst_eq, Segments.order]

theorem filter_append_of_mem (hkept : ∀ e ∈ kept, e ∉ victims) (hgone : ∀ e ∈ gone, e ∈ victims) :
    (kept ++ gone).filter (· ∉ victims) = kept := by
  have hall : kept.filter (· ∉ victims) = kept := by
    rw [List.filter_eq_self]
    exact fun e he => decide_eq_true (hkept e he)
  have hnone : gone.filter (· ∉ victims) = [] := by
    rw [List.filter_eq_nil_iff]
    exact fun e he hout => of_decide_eq_true hout (hgone e he)
  rw [List.filter_append, hall, hnone, List.append_nil]

/-- Costs that fit together still do so after an eviction. -/
theorem SumsFit.evict (hp : p.SumsFit) (h : p.Holds s) (need : Nat) :
    (p.evict need).2.SumsFit := by
  have ht : p.Tracks s.all := ⟨s, h, .refl _⟩
  have hlt := ht.costSum_lt hp
  obtain ⟨kept, hkept, hperm, -⟩ := ht.evict need
  refine hkept.sumsFit (ht.overflowed_evict hp.1 hlt need) ?_
  rw [← RecencyList.costSum_perm hperm, RecencyList.costSum_append] at hlt
  omega

/-- No sum that is too great is noted. -/
theorem SumsFit.evict_frame (hp : p.SumsFit) (h : p.Holds s) (need : Nat) :
    ∃ window probation protection,
      (p.evict need).2 = { p with window, probation, protection } := by
  obtain ⟨window, probation, protection, sumOverflowed, heq⟩ := p.evict_frame need
  have hnext := (overflowed_eq_false_iff.1 (hp.evict h need).1).1
  rw [heq] at hnext
  have hsame : sumOverflowed = p.sumOverflowed :=
    hnext.trans (overflowed_eq_false_iff.1 hp.1).1.symm
  subst hsame
  exact ⟨window, probation, protection, heq⟩

theorem Holds.evicts (h : p.Holds s) (hp : p.SumsFit) (need : Nat) :
    p.Evicts need (p.evict need).1 (p.evict need).2 := by
  have hlt := (h.totalOverflows_eq_false_iff hp.1).1 hp.2
  have hframe := hp.evict_frame h need
  obtain ⟨-, hwindow, hprobation, hprotection⟩ :=
    overflowed_eq_false_iff.1 (hp.evict h need).1
  obtain ⟨kept, gone, rfl, hgone, hkept, hcuts⟩ := h.evict need
  replace hcuts := hcuts hlt
  have hdisjoint : ∀ e ∈ kept.order, e ∉ gone.order := by
    have hn := nodup_of_perm (perm_order _) h.nodup
    rw [hcuts.split, List.map_append] at hn
    intro e he hout
    exact List.disjoint_of_nodup_append hn (List.mem_map_of_mem hout) (List.mem_map_of_mem he)
  have hlinked {l l' : RecencyList Unit} {stay leave : List (Entry Unit)}
      (hl : l.Holds (stay ++ leave)) (hl' : l'.Holds stay) (hfit : l'.overflowed = false)
      (hstay : stay.reverse ⊆ kept.order) (hleave : leave.reverse ⊆ gone.order) :
      l'.Linked (l.toList.filter (· ∉ gone.order)) := by
    rw [hl.toList_eq, filter_append_of_mem
      (fun e he => hdisjoint e (hstay (List.mem_reverse.2 he)))
      fun e he => hleave (List.mem_reverse.2 he)]
    exact hl'.linked hfit
  rw [← h.evictionOrder_eq, ← hkept.evictionOrder_eq] at hcuts
  rw [hgone]
  refine ⟨hcuts, ?_, ?_, ?_, ?_, ?_, hframe⟩
  · rintro rfl
    exact hcuts.front_eq_nil
  · intro hless
    rw [hcuts.split, hcuts.rest_eq_nil hless, List.append_nil]
  · exact hlinked h.window hkept.window hwindow (by simp [Segments.order])
      (by simp [Segments.order])
  · exact hlinked h.probation hkept.probation hprobation (by simp [Segments.order])
      (by simp [Segments.order])
  · exact hlinked h.protection hkept.protection hprotection (by simp [Segments.order])
      (by simp [Segments.order])

/-! ## Two evictions -/

theorem filter_filter_not_mem (es victims victims' : List (Entry Unit)) :
    (es.filter (· ∉ victims)).filter (· ∉ victims') = es.filter (· ∉ victims ++ victims') := by
  rw [List.filter_filter]
  congr 1
  funext e
  simp [Bool.and_comm]

/-- Evicting again is evicting once for more. -/
theorem Evicts.again (h : p.Evicts need victims q) (h' : q.Evicts more victims' r)
    (hboth : p.Evicts (costSum victims + more) both r') (hmore : 0 < more) :
    both = victims ++ victims' ∧ r.Alike r' := by
  obtain ⟨rfl, -⟩ := hboth.cuts.unique (h.cuts.add h'.cuts hmore)
  refine ⟨rfl, ?_, ?_, ?_⟩
  · rw [h'.window.toList_eq, h.window.toList_eq, filter_filter_not_mem, hboth.window.toList_eq]
  · rw [h'.probation.toList_eq, h.probation.toList_eq, filter_filter_not_mem,
      hboth.probation.toList_eq]
  · rw [h'.protection.toList_eq, h.protection.toList_eq, filter_filter_not_mem,
      hboth.protection.toList_eq]

/-- After every run whose sums of costs fit into words, an eviction takes the shortest prefix of the
order of eviction that costs enough, and all else stays in its segment and its order.  A second
eviction, for more than nothing, leaves what a single one leaves that asks for what the first freed
and for that. -/
theorem evicts_of_run (hash : Fin 4 → String → UInt64) (maxCost numCounters : UInt64)
    {rs : List Request} (hfit : ((new hash maxCost numCounters).run rs).SumsFit) (need : Nat) :
    let p := (new hash maxCost numCounters).run rs
    let victims := (p.evict need).1
    let q := (p.evict need).2
    p.Evicts need victims q ∧
      ∀ more, 0 < more →
        (p.evict (costSum victims + more)).1 = victims ++ (q.evict more).1 ∧
        (q.evict more).2.Alike (p.evict (costSum victims + more)).2 := by
  intro p victims q
  obtain ⟨s, hs⟩ := ((fits_new hash maxCost numCounters).run rs).holds
  obtain ⟨kept, -, -, -, hkept, -⟩ := hs.evict need
  have hfirst : p.Evicts need victims q := hs.evicts hfit need
  have hsecond : q.SumsFit := hfit.evict hs need
  exact ⟨hfirst,
    fun more hmore => hfirst.again (hkept.evicts hsecond more) (hs.evicts hfit _) hmore⟩

/-- Four keys on probation, two of them free, one that is protected and one in the window. -/
def requestsWithFreeEntries : List Request :=
  [.offer "a" 2, .read "a" 1, .offer "b" 0, .offer "c" 3, .offer "d" 0, .offer "e" 5, .offer "f" 1]

/-- The free entry behind the one that frees enough stays, until more is needed. -/
theorem evicts_of_run_with_free_entries :
    let p := (new (fun _ _ => 0) 104 64).run requestsWithFreeEntries
    let victims := (p.evict 3).1
    let q := (p.evict 3).2
    p.SumsFit ∧
      p.evictionOrder = [⟨"b", (), 0⟩, ⟨"c", (), 3⟩, ⟨"d", (), 0⟩, ⟨"e", (), 5⟩, ⟨"a", (), 2⟩,
        ⟨"f", (), 1⟩] ∧
      victims = [⟨"b", (), 0⟩, ⟨"c", (), 3⟩] ∧
      (q.evict 6).1 = [⟨"d", (), 0⟩, ⟨"e", (), 5⟩, ⟨"a", (), 2⟩] ∧ 0 < 6 ∧
      p.Evicts 3 victims q ∧
      (p.evict (costSum victims + 6)).1 = victims ++ (q.evict 6).1 ∧
      (q.evict 6).2.Alike (p.evict (costSum victims + 6)).2 :=
  have hfit : ((new (fun _ _ => 0) 104 64).run requestsWithFreeEntries).SumsFit :=
    ⟨by decide +kernel, by decide +kernel⟩
  ⟨hfit, by decide +kernel, by decide +kernel, by decide +kernel, by decide,
    (evicts_of_run (fun _ _ => 0) 104 64 hfit 3).1,
    (evicts_of_run (fun _ _ => 0) 104 64 hfit 3).2 6 (by decide)⟩

end Admission

end PodCache
