import PodCache.Proofs.Local.RecencyOrder
import PodCache.Proofs.Local.Sums

/-!
# What a policy tracks through a run

Whatever an admission policy is asked (`Admission.Request`), it keeps account of every key.  After
every request each tracked key is in one segment, with the cost that it was last offered with, and
window and protected part are within their capacities; the totals are the sums of these costs,
unless a sum was too great for a word (`Orderly`).  The next request changes the tracked keys and
costs by what it asks for and by what it tells, and by nothing else (`Conserves`).  It also comes to
its end by the rules of `Serves`, none of which is about a segment that lacks the entry to be moved.
-/

namespace PodCache

open RecencyList (without costSum)

namespace RecencyList

variable {α : Type}

theorem cost?_eq_of_remove (l : RecencyList α) (key : String) :
    (l.remove key).map (fun found => found.1.cost) = l.cost? key := by
  obtain ⟨es, hes⟩ := l.exists_holds
  cases hr : l.remove key with
  | none => exact (hes.cost?_eq_none_iff.2 (hes.remove_eq_none_iff.1 hr)).symm
  | some found =>
    obtain ⟨e, rest⟩ := found
    obtain ⟨he, hk, -⟩ := hes.of_remove hr
    exact (hes.cost?_eq_some_iff.2 ⟨e, he, hk, rfl⟩).symm

end RecencyList

namespace Admission

variable {p q : Admission} {s : Segments} {es kept dropped : List (Entry Unit)}
  {key k : String} {cost : Nat}

/-! ## Requests -/

/-- What an admission policy may be asked. -/
inductive Request where
  | offer (key : String) (cost : Nat)
  | read (key : String) (count : Nat)
  | remove (key : String)
  | evict (need : Nat)
  | clear
  deriving DecidableEq

/-- The policy after a request. -/
def serve (p : Admission) : Request → Admission
  | .offer key cost => (p.offer key cost).2
  | .read key count => p.recordReads key count
  | .remove key => (p.remove key).2
  | .evict need => (p.evict need).2
  | .clear => p.clear

/-- The policy after a sequence of requests. -/
def run (p : Admission) (requests : List Request) : Admission := requests.foldl serve p

theorem run_append_singleton (p : Admission) (rs : List Request) (r : Request) :
    p.run (rs ++ [r]) = (p.run rs).serve r := by
  simp [run]

/-- The cost that a request offers. -/
def Request.offered : Request → Nat
  | .offer _ cost => cost
  | _ => 0

/-- The sum of the costs that are offered in a sequence of requests. -/
def offeredCost (requests : List Request) : Nat := (requests.map Request.offered).sum

/-- Whether a request neither offers nor removes a key. -/
def Request.Spares (key : String) : Request → Prop
  | .offer k _ | .remove k => k ≠ key
  | .clear => False
  | .read _ _ | .evict _ => True

/-- The tracked entries, from the most to the least recently used in each segment. -/
def entries (p : Admission) : List (Entry Unit) :=
  p.window.toList ++ p.probation.toList ++ p.protection.toList

/-! ## One request -/

/-- What a request makes of a policy whose segments never lack the entry to be moved. -/
inductive Serves (p : Admission) : Request → Admission → Prop
  | readInWindow {key : String} {count : Nat} (hw : p.window.contains key = true) :
    Serves p (.read key count)
      { p.counted key (min count maxReads) with window := (p.window.touch key).2 }
  | readProtected {key : String} {count : Nat} (hw : p.window.contains key = false)
    (ht : p.protection.contains key = true) :
    Serves p (.read key count)
      { p.counted key (min count maxReads) with protection := (p.protection.touch key).2 }
  | readOnProbation {key : String} {count : Nat} {e : Entry Unit} {rest : RecencyList Unit}
    {q : Admission} (hr : p.probation.remove key = some (e, rest))
    (hd : Demotes { p.counted key (min count maxReads) with
      probation := rest, protection := (p.protection.pushFront key () e.cost).2 } q) :
    Serves p (.read key count) q
  | readUntracked {key : String} {count : Nat} (hk : p.contains key = false) :
    Serves p (.read key count) (p.counted key (min count maxReads))
  | offerProtected {key : String} {cost : Nat} {q : Admission}
    (ht : p.protection.contains key = true)
    (hd : Demotes { p.counted key 1 with
      protection := (p.protection.pushFront key () cost).2 } q) :
    Serves p (.offer key cost) q
  | offerOnProbation {key : String} {cost : Nat} {e : Entry Unit} {rest : RecencyList Unit}
    {q : Admission} (hr : p.probation.remove key = some (e, rest))
    (hd : Demotes { p.counted key 1 with
      probation := rest, protection := (p.protection.pushFront key () cost).2 } q) :
    Serves p (.offer key cost) q
  | offerElsewhere {key : String} {cost : Nat} {q : Admission} (hmain : p.inMain key = false)
    (hd : Drains (p.pushed key cost) (p.offer key cost).1 q) :
    Serves p (.offer key cost) q
  | remove {key : String} : Serves p (.remove key) (p.remove key).2
  | evict {need : Nat} : Serves p (.evict need) (p.evict need).2
  | clear : Serves p .clear p.clear

/-- What requests change about the tracked keys and their costs, and what they tell about it. -/
structure Conserves (p : Admission) : Prop where
  /-- An offered key is tracked with its cost, and so is all else but what is told to give way. -/
  offer : ∀ key cost, (p.offer key cost).1.Nodup ∧
    (∀ k ∈ (p.offer key cost).1, k = key ∨ p.contains k = true) ∧
    ∀ k, (p.offer key cost).2.cost? k =
      if k ∈ (p.offer key cost).1 then none else if k = key then some cost else p.cost? k
  read : ∀ key count k, (p.recordReads key count).cost? k = p.cost? k
  /-- A key is removed with the cost that is told. -/
  remove : ∀ key, (p.remove key).1 = p.cost? key ∧
    ∀ k, (p.remove key).2.cost? k = if k = key then none else p.cost? k
  /-- The victims are told with their costs, and all else stays. -/
  evict : ∀ need, ((p.evict need).1.map Entry.key).Nodup ∧
    (∀ e ∈ (p.evict need).1, p.cost? e.key = some e.cost) ∧
    ∀ k, (p.evict need).2.cost? k =
      if k ∈ (p.evict need).1.map Entry.key then none else p.cost? k
  clear : ∀ k, p.clear.cost? k = none

/-- What holds of a policy after a sequence of requests. -/
structure Orderly (p : Admission) (rs : List Request) : Prop where
  window_apart : ∀ key, p.window.contains key = true →
    p.probation.contains key = false ∧ p.protection.contains key = false
  main_apart : ∀ key, p.probation.contains key = true → p.protection.contains key = false
  window_le : p.window.totalCost ≤ p.windowCapacity
  protection_le : p.protection.totalCost ≤ p.protectionCapacity
  /-- No key is tracked twice. -/
  once : (p.entries.map Entry.key).Nodup
  tracked : ∀ key, p.contains key = (p.cost? key).isSome
  costs : ∀ key cost, p.cost? key = some cost ↔ ⟨key, (), cost⟩ ∈ p.entries
  /-- The totals are the sums of the costs. -/
  total : p.SumsFit → p.totalCost = costSum p.entries
  segmentTotals : p.SumsFit → p.window.totalCost = costSum p.window.toList ∧
    p.probation.totalCost = costSum p.probation.toList ∧
    p.protection.totalCost = costSum p.protection.toList
  /-- No sum is too great if the offered costs together are not. -/
  sumsFit : offeredCost rs < UInt64.size → p.SumsFit
  /-- A key is tracked with the cost of its last offer. -/
  offered : ∀ key cost, p.cost? key = some cost →
    ∃ earlier later, rs = earlier ++ .offer key cost :: later ∧ ∀ r ∈ later, r.Spares key

/-! ## Requests come to their end -/

theorem contains_eq_false (h : p.Holds s) (hw : p.window.contains key = false)
    (hr : p.probation.remove key = none) (ht : p.protection.contains key = false) :
    p.contains key = false := by
  have hb := h.probation.remove_eq_none_iff.1 hr
  rw [← h.probation.contains_iff, Bool.not_eq_true] at hb
  simp [contains, hw, hb, ht]

/-- A key on probation goes to the front of the protected ones. -/
theorem Holds.promote {e : Entry Unit} {rest : RecencyList Unit} (h : p.Holds s)
    (hr : p.probation.remove key = some (e, rest)) (cost : Nat) :
    ∃ s', Holds { p with
      probation := rest, protection := (p.protection.pushFront key () cost).2 } s' := by
  obtain ⟨-, -, htaken, hne, -⟩ := h.takeFromProbation hr
  exact ⟨_, htaken.pushProtection cost hne⟩

theorem Holds.serves_read (h : p.Holds s) (key : String) (count : Nat) :
    p.Serves (.read key count) (p.recordReads key count) := by
  have hc := h.counted key (min count maxReads)
  unfold Admission.recordReads
  dsimp only
  split_ifs with hw ht
  · exact .readInWindow hw
  · exact .readProtected (Bool.eq_false_iff.2 hw) ht
  · split
    · rename_i e rest hr
      obtain ⟨s', hs'⟩ := hc.promote hr e.cost
      exact .readOnProbation hr hs'.demotes
    · rename_i hr
      exact .readUntracked
        (contains_eq_false h (Bool.eq_false_iff.2 hw) hr (Bool.eq_false_iff.2 ht))

theorem Holds.serves_offer (h : p.Holds s) (key : String) (cost : Nat) :
    p.Serves (.offer key cost) (p.offer key cost).2 := by
  have hc := h.counted key 1
  by_cases ht : key ∈ s.protection.map Entry.key
  · have hcontains := h.protection.contains_iff.2 ht
    have hoffer : p.offer key cost = ([], (p.counted key 1).protect key cost) := if_pos hcontains
    rw [hoffer]
    exact .offerProtected hcontains (hc.pushProtection cost (h.not_mem_of_protection ht)).demotes
  · cases hr : p.probation.remove key with
    | some found =>
      obtain ⟨e, rest⟩ := found
      obtain ⟨s', hs'⟩ := hc.promote hr cost
      rw [h.offer_eq_protect ht hr]
      exact .offerOnProbation hr hs'.demotes
    | none =>
      have hb := h.probation.remove_eq_none_iff.1 hr
      have hmain : p.inMain key = false := by
        rw [Bool.eq_false_iff, ne_eq, h.inMain_iff, Segments.main, List.map_append,
          List.mem_append, not_or]
        exact ⟨hb, ht⟩
      have hdrains := (h.pushed cost hb ht).drains
      refine .offerElsewhere hmain ?_
      rw [h.offer_eq_drainWindow cost hb ht]
      exact hdrains

theorem Fits.serves (h : p.Fits) (r : Request) : p.Serves r (p.serve r) := by
  obtain ⟨s, hs⟩ := h.holds
  cases r with
  | offer key cost => exact hs.serves_offer key cost
  | read key count => exact hs.serves_read key count
  | remove key => exact .remove
  | evict need => exact .evict
  | clear => exact .clear

/-! ## What a request changes -/

theorem Tracks.nodup (h : p.Tracks es) : (es.map Entry.key).Nodup := by
  obtain ⟨s, hs, hes⟩ := h
  exact nodup_of_perm hes.symm hs.nodup

theorem Tracks.contains_eq_isSome (h : p.Tracks es) : p.contains key = (p.cost? key).isSome := by
  rw [Bool.eq_iff_iff, h.contains_iff, Option.isSome_iff_exists, List.mem_map]
  constructor
  · rintro ⟨e, he, rfl⟩
    exact ⟨e.cost, h.cost?_eq_some_iff.2 he⟩
  · rintro ⟨cost, hc⟩
    exact ⟨_, h.cost?_eq_some_iff.1 hc, rfl⟩

/-- What is tracked when some entries of a list are dropped from it. -/
theorem Tracks.cost?_of_perm {ds : List (Entry Unit)} (h : q.Tracks kept)
    (hperm : (kept ++ dropped).Perm ds) (hn : (ds.map Entry.key).Nodup) :
    (dropped.map Entry.key).Nodup ∧ ∀ k cost, q.cost? k = some cost ↔
      k ∉ dropped.map Entry.key ∧ ⟨k, (), cost⟩ ∈ ds := by
  have hboth := nodup_of_perm hperm hn
  rw [List.map_append, List.nodup_append'] at hboth
  obtain ⟨-, hdropped, hdisj⟩ := hboth
  refine ⟨hdropped, fun k cost => ?_⟩
  rw [h.cost?_eq_some_iff, ← hperm.mem_iff, List.mem_append]
  constructor
  · intro he
    exact ⟨hdisj (List.mem_map_of_mem he), .inl he⟩
  · rintro ⟨hk, he⟩
    exact he.resolve_right fun hd => hk (List.mem_map_of_mem hd)

theorem Tracks.conserves_offer (h : p.Tracks es) (key : String) (cost : Nat) :
    (p.offer key cost).1.Nodup ∧
      (∀ k ∈ (p.offer key cost).1, k = key ∨ p.contains k = true) ∧
      ∀ k, (p.offer key cost).2.cost? k =
        if k ∈ (p.offer key cost).1 then none else if k = key then some cost else p.cost? k := by
  obtain ⟨kept, dropped, hkept, hd, hperm⟩ := h.offer key cost
  obtain ⟨hn, hcosts⟩ := hkept.cost?_of_perm hperm (nodup_cons_without h.nodup key () cost)
  rw [hd]
  refine ⟨hn, fun k hk => ?_, fun k => Option.ext fun n => ?_⟩
  · obtain ⟨e, he, rfl⟩ := List.mem_map.1 hk
    rw [h.contains_iff]
    rcases List.mem_cons.1 (hperm.mem_iff.1 (List.mem_append_right _ he)) with rfl | he
    · exact .inl rfl
    · exact .inr (List.mem_map_of_mem (RecencyList.mem_without.1 he).1)
  · rw [hcosts]
    by_cases hk : k ∈ dropped.map Entry.key
    · simp [hk]
    · rw [if_neg hk, List.mem_cons, RecencyList.mem_without]
      by_cases hkey : k = key
      · subst hkey
        simp [hk, eq_comm]
      · rw [if_neg hkey, h.cost?_eq_some_iff]
        simp [hk, hkey]

theorem remove_fst (p : Admission) (key : String) : (p.remove key).1 = p.cost? key := by
  unfold Admission.remove cost?
  rw [← RecencyList.cost?_eq_of_remove p.window, ← RecencyList.cost?_eq_of_remove p.probation,
    ← RecencyList.cost?_eq_of_remove p.protection]
  cases p.window.remove key with
  | some found => rfl
  | none =>
    cases p.probation.remove key with
    | some found => rfl
    | none => cases p.protection.remove key <;> rfl

theorem Tracks.conserves_remove (h : p.Tracks es) (key : String) :
    (p.remove key).1 = p.cost? key ∧
      ∀ k, (p.remove key).2.cost? k = if k = key then none else p.cost? k := by
  refine ⟨p.remove_fst key, fun k => Option.ext fun n => ?_⟩
  rw [(h.remove key).cost?_eq_some_iff, RecencyList.mem_without]
  by_cases hk : k = key
  · simp [hk]
  · rw [if_neg hk, h.cost?_eq_some_iff]
    simp [hk]

theorem Tracks.conserves_evict (h : p.Tracks es) (need : Nat) :
    ((p.evict need).1.map Entry.key).Nodup ∧
      (∀ e ∈ (p.evict need).1, p.cost? e.key = some e.cost) ∧
      ∀ k, (p.evict need).2.cost? k =
        if k ∈ (p.evict need).1.map Entry.key then none else p.cost? k := by
  obtain ⟨kept, hkept, hperm, -⟩ := h.evict need
  obtain ⟨hn, hcosts⟩ := hkept.cost?_of_perm hperm h.nodup
  refine ⟨hn, fun e he => ?_, fun k => Option.ext fun n => ?_⟩
  · exact h.cost?_eq_some_iff.2 (hperm.mem_iff.1 (List.mem_append_right _ he))
  · rw [hcosts, ← h.cost?_eq_some_iff]
    by_cases hk : k ∈ (p.evict need).1.map Entry.key
    · simp [hk]
    · simp only [hk, not_false_eq_true, true_and, if_false]

theorem Tracks.conserves (h : p.Tracks es) : p.Conserves where
  offer := h.conserves_offer
  read key count k := by
    apply Option.ext
    intro cost
    rw [(h.recordReads key count).cost?_eq_some_iff, h.cost?_eq_some_iff]
  remove := h.conserves_remove
  evict := h.conserves_evict
  clear k := by
    rw [Option.eq_none_iff_forall_ne_some]
    intro cost hcost
    exact List.not_mem_nil (p.tracks_clear.cost?_eq_some_iff.1 hcost)

/-! ## Runs -/

theorem Fits.serve (h : p.Fits) (r : Request) : (p.serve r).Fits := by
  cases r with
  | offer key cost => exact h.offer key cost
  | read key count => exact h.recordReads key count
  | remove key => exact h.remove key
  | evict need => exact h.evict need
  | clear => exact .clear p

theorem Fits.run (h : p.Fits) (rs : List Request) : (p.run rs).Fits := by
  induction rs using List.reverseRecOn with
  | nil => exact h
  | append_singleton rs r ih =>
    rw [run_append_singleton]
    exact ih.serve r

/-- A key that is tracked after a request was offered by it, or was tracked before with its cost. -/
theorem Conserves.cost?_serve (h : p.Conserves) {r : Request}
    (hc : (p.serve r).cost? key = some cost) :
    r = .offer key cost ∨ r.Spares key ∧ p.cost? key = some cost := by
  cases r with
  | offer k n =>
    rw [serve, (h.offer k n).2.2] at hc
    split_ifs at hc with _ hk
    · subst hk
      exact .inl (by rw [Option.some.inj hc])
    · exact .inr ⟨Ne.symm hk, hc⟩
  | read k count =>
    rw [serve, h.read] at hc
    exact .inr ⟨trivial, hc⟩
  | remove k =>
    rw [serve, (h.remove k).2] at hc
    split_ifs at hc with hk
    exact .inr ⟨Ne.symm hk, hc⟩
  | evict need =>
    rw [serve, (h.evict need).2.2] at hc
    split_ifs at hc
    exact .inr ⟨trivial, hc⟩
  | clear =>
    rw [serve, h.clear] at hc
    cases hc

theorem Fits.conserves (h : p.Fits) : p.Conserves := by
  obtain ⟨s, hs⟩ := h.holds
  have ht : p.Tracks s.all := ⟨s, hs, .refl _⟩
  exact ht.conserves

/-- The tracked cost of a key is that of its last offer. -/
theorem last_offer_of_run (hash : Fin 4 → String → UInt64) (maxCost numCounters : UInt64)
    {rs : List Request} (hc : ((new hash maxCost numCounters).run rs).cost? key = some cost) :
    ∃ earlier later, rs = earlier ++ .offer key cost :: later ∧ ∀ r ∈ later, r.Spares key := by
  induction rs using List.reverseRecOn with
  | nil => exact absurd ((tracks_new _ _ _).cost?_eq_some_iff.1 hc) List.not_mem_nil
  | append_singleton rs r ih =>
    rw [run_append_singleton] at hc
    rcases ((fits_new hash maxCost numCounters).run rs).conserves.cost?_serve hc with
      rfl | ⟨hspares, hbefore⟩
    · exact ⟨rs, [], rfl, by simp⟩
    · obtain ⟨earlier, later, rfl, hlater⟩ := ih hbefore
      refine ⟨earlier, later ++ [r], by simp, ?_⟩
      intro r' hr'
      rcases List.mem_append.1 hr' with hr' | hr'
      · exact hlater r' hr'
      · rwa [List.mem_singleton.1 hr']

theorem offeredCost_append_singleton (rs : List Request) (r : Request) :
    offeredCost (rs ++ [r]) = offeredCost rs + r.offered := by
  simp [offeredCost]

/-- A request adds to the tracked costs no more than it offers, and takes no sum that is too great
if both together are not. -/
theorem Tracks.serve (h : p.Tracks es) (r : Request) :
    ∃ kept, (p.serve r).Tracks kept ∧ costSum kept ≤ costSum es + r.offered ∧
      (p.overflowed = false → costSum es + r.offered < UInt64.size →
        (p.serve r).overflowed = false) := by
  cases r with
  | offer key cost =>
    obtain ⟨kept, dropped, hkept, -, hperm⟩ := h.offer key cost
    have hwithout : costSum (without es key) ≤ costSum es :=
      RecencyList.costSum_le_of_sublist List.filter_sublist
    have hsum := RecencyList.costSum_perm hperm
    rw [RecencyList.costSum_append, RecencyList.costSum_cons] at hsum
    dsimp only at hsum
    refine ⟨kept, hkept, ?_, fun hp hlt => h.overflowed_offer hp ?_⟩
    · rw [Request.offered]
      omega
    · rw [Request.offered] at hlt
      omega
  | read key count =>
    exact ⟨es, h.recordReads key count, Nat.le_add_right _ _,
      fun hp hlt => h.overflowed_recordReads hp hlt key count⟩
  | remove key =>
    refine ⟨_, h.remove key, ?_, fun hp _ => (p.overflowed_remove key).trans hp⟩
    exact (RecencyList.costSum_le_of_sublist List.filter_sublist).trans (Nat.le_add_right _ _)
  | evict need =>
    obtain ⟨kept, hkept, hperm, -⟩ := h.evict need
    refine ⟨kept, hkept, ?_, fun hp hlt => h.overflowed_evict hp hlt need⟩
    rw [← RecencyList.costSum_perm hperm, RecencyList.costSum_append]
    exact (Nat.le_add_right _ _).trans (Nat.le_add_right _ _)
  | clear => exact ⟨[], p.tracks_clear, Nat.zero_le _, fun hp _ => p.overflowed_clear.trans hp⟩

theorem sumsFit_run (hash : Fin 4 → String → UInt64) (maxCost numCounters : UInt64)
    {rs : List Request} (hfit : offeredCost rs < UInt64.size) :
    ((new hash maxCost numCounters).run rs).SumsFit := by
  have hrun : ∃ es, ((new hash maxCost numCounters).run rs).Tracks es ∧
      costSum es ≤ offeredCost rs ∧ ((new hash maxCost numCounters).run rs).overflowed = false := by
    induction rs using List.reverseRecOn with
    | nil => exact ⟨[], tracks_new _ _ _, Nat.zero_le _, rfl⟩
    | append_singleton rs r ih =>
      rw [offeredCost_append_singleton] at hfit
      obtain ⟨es, hes, hle, hp⟩ := ih (by omega)
      obtain ⟨kept, hkept, hcost, hflag⟩ := hes.serve r
      rw [run_append_singleton, offeredCost_append_singleton]
      exact ⟨kept, hkept, by omega, hflag hp (by omega)⟩
  obtain ⟨es, hes, hle, hp⟩ := hrun
  exact hes.sumsFit hp (Nat.lt_of_le_of_lt hle hfit)

theorem Holds.entries_eq (h : p.Holds s) : p.entries = s.all := by
  rw [entries, h.window.toList_eq, h.probation.toList_eq, h.protection.toList_eq, Segments.all]

theorem Fits.orderly (h : p.Fits) {rs : List Request}
    (hlast : ∀ key cost, p.cost? key = some cost →
      ∃ earlier later, rs = earlier ++ .offer key cost :: later ∧ ∀ r ∈ later, r.Spares key)
    (hfit : offeredCost rs < UInt64.size → p.SumsFit) : p.Orderly rs := by
  obtain ⟨s, hs⟩ := h.holds
  have ht : p.Tracks p.entries := ⟨s, hs, by rw [hs.entries_eq]⟩
  refine ⟨fun key hk => ?_, fun key hk => ?_, h.window_le, h.protection_le, ht.nodup,
    fun key => ht.contains_eq_isSome, fun key cost => ht.cost?_eq_some_iff, ht.totalCost, ?_, hfit,
    hlast⟩
  · rw [hs.window.contains_iff] at hk
    rw [Bool.eq_false_iff, Bool.eq_false_iff, ne_eq, ne_eq, hs.probation.contains_iff,
      hs.protection.contains_iff]
    exact ⟨fun hb => hs.not_mem_of_probation hb hk, hs.not_mem_protection (.inl hk)⟩
  · rw [hs.probation.contains_iff] at hk
    rw [Bool.eq_false_iff, ne_eq, hs.protection.contains_iff]
    exact hs.not_mem_protection (.inr hk)
  · rw [hs.window.toList_eq, hs.probation.toList_eq, hs.protection.toList_eq]
    exact fun hp => hs.totals hp.1

/-- After every run each tracked key is in one segment, with the cost that it was last offered with;
window and protected part are within their capacities, and the totals are sums as long as these fit.
Any further request changes what is tracked by what it asks for and what it tells alone, and comes
to its end without missing an entry to be moved. -/
theorem orderly_of_run (hash : Fin 4 → String → UInt64) (maxCost numCounters : UInt64)
    (rs : List Request) :
    ((new hash maxCost numCounters).run rs).Orderly rs ∧
      ((new hash maxCost numCounters).run rs).Conserves ∧
      ∀ r, ((new hash maxCost numCounters).run rs).Serves r
        (((new hash maxCost numCounters).run rs).serve r) := by
  have hfits := (fits_new hash maxCost numCounters).run rs
  exact ⟨hfits.orderly (fun _ _ hc => last_offer_of_run hash maxCost numCounters hc)
    (sumsFit_run hash maxCost numCounters), hfits.conserves, hfits.serves⟩

end Admission

end PodCache
