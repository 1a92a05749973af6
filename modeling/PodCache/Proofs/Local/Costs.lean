import PodCache.Proofs.Local.Pass

/-!
# What entries cost

What a frequency cache holds or its policy tracks was set at some time, with the cost that it has
there; a property of what is set is one of all entries (`FrequencyCache.Only`).  When entries with
such a property fit together, under different keys, no sum of costs in a pass is too great for a
word (`overflowed_maintain`), and none is in a run whose sets together cost less
(`overflowed_run_of_writtenCost`).
-/

namespace PodCache

open RecencyList (without costSum)

/-- The cost that a request brings. -/
def LocalRequest.writes {V : Type} : LocalRequest V → Nat
  | .set _ _ cost => cost
  | _ => 0

/-- What all sets of a sequence of requests cost together. -/
def writtenCost {V : Type} (requests : List (LocalRequest V)) : Nat :=
  (requests.map LocalRequest.writes).sum

namespace FrequencyCache

variable {V : Type} {c : FrequencyCache V} {P : Entry Unit → Prop} {s : Segments} {bound : Nat}

/-- All entries that are resident or tracked have a property. -/
structure Only (P : Entry Unit → Prop) (c : FrequencyCache V) : Prop where
  resident : ∀ (key : String) (slot : Slot V), c.resident[key]? = some slot →
    P ⟨key, (), slot.cost⟩
  tracked : ∀ key cost, c.policy.cost? key = some cost → P ⟨key, (), cost⟩

theorem Only.entries (h : c.Only P) (hs : c.policy.Holds s) : ∀ e ∈ s.all, P e := by
  intro e he
  have ht : c.policy.Tracks s.all := ⟨s, hs, .refl _⟩
  exact h.tracked e.key e.cost (ht.cost?_eq_some_iff.2 he)

theorem tracked_of_entries {p : Admission} {es : List (Entry Unit)} (ht : p.Tracks es)
    (hes : ∀ e ∈ es, P e) : ∀ key cost, p.cost? key = some cost → P ⟨key, (), cost⟩ :=
  fun _ _ hcost => hes _ (ht.cost?_eq_some_iff.1 hcost)

/-! ## Requests -/

theorem Only.hear (h : c.Only P) (hsized : c.policy.Sized bound) (u : Use) :
    (c.hear u).Only P := by
  refine ⟨fun key slot hslot => h.resident key slot ((c.hear_trims u).slots key slot hslot), ?_⟩
  have hu := c.hears u
  revert hu
  generalize (c.hear u).policy = q
  obtain ⟨s, hs⟩ := hsized.holds
  have ht : c.policy.Tracks s.all := ⟨s, hs, .refl _⟩
  rintro (_ | _ | _ | hslot)
  · exact h.tracked
  · exact tracked_of_entries (ht.recordReads _ _) (h.entries hs)
  · exact h.tracked
  · obtain ⟨kept, dropped, hkept, -, hperm⟩ := ht.offer _ _
    refine tracked_of_entries hkept fun e he => ?_
    rcases List.mem_cons.1 (hperm.mem_iff.1 (List.mem_append_left _ he)) with rfl | he
    · exact h.resident _ _ hslot
    · exact h.entries hs e (RecencyList.mem_without.1 he).1

theorem Only.heard (h : c.Only P) (hsized : c.policy.Sized c.maxCost) : c.heard.Only P :=
  (foldl_hear_induction (P := fun d => d.Only P ∧ d.policy.Sized c.maxCost) (c := c.emptied)
    (fun _ u hd => ⟨hd.1.hear hd.2 u, sized_hear hd.2 u⟩) ⟨⟨h.resident, h.tracked⟩, hsized⟩
    c.waiting).1

theorem Only.maintain (h : c.Only P) (hsized : c.policy.Sized c.maxCost) : c.maintain.Only P := by
  refine ⟨fun key slot hslot => h.resident key slot (c.maintain_trims.slots key slot hslot), ?_⟩
  obtain ⟨s, hs⟩ := (sized_heard hsized).holds
  have ht : c.heard.summed.Tracks s.all := ⟨s, hs.noteSum _, .refl _⟩
  obtain ⟨kept, hkept, hperm, -⟩ := ht.evict (c.heard.summed.totalCost - c.heard.maxCost)
  rw [maintain_eq, policy_enforceBound]
  refine tracked_of_entries hkept fun e he => (h.heard hsized).entries hs e ?_
  exact hperm.mem_iff.1 (List.mem_append_left _ he)

theorem Only.perform (h : c.Only P) (hsized : c.policy.Sized c.maxCost) {r : LocalRequest V}
    (hr : ∀ key value cost, r = .set key value cost → P ⟨key, (), cost⟩) :
    (c.perform r).Only P := by
  cases r with
  | get key =>
    obtain ⟨reads, hits, misses, heq⟩ := c.get_frame key
    rw [FrequencyCache.perform, heq]
    exact ⟨h.resident, h.tracked⟩
  | set key value cost =>
    unfold FrequencyCache.perform
    dsimp only
    split_ifs
    · exact h
    · refine ⟨fun k slot hslot => ?_, h.tracked⟩
      rw [Std.TreeMap.getElem?_insert] at hslot
      split_ifs at hslot with hk
      · obtain rfl := Option.some.inj hslot
        obtain rfl := Std.compare_eq_iff_eq.1 hk
        exact hr key value cost rfl
      · exact h.resident k slot hslot
  | delete key =>
    obtain ⟨s, hs⟩ := hsized.holds
    have ht : c.policy.Tracks s.all := ⟨s, hs, .refl _⟩
    refine ⟨fun k slot hslot => ?_, tracked_of_entries (ht.remove key) fun e he =>
      h.entries hs e (RecencyList.mem_without.1 he).1⟩
    rw [FrequencyCache.perform, delete, Std.TreeMap.getElem?_erase] at hslot
    split_ifs at hslot
    exact h.resident k slot hslot
  | clear | close =>
    have ht := c.policy.tracks_clear
    refine ⟨fun k slot hslot => ?_, tracked_of_entries ht fun _ he => by cases he⟩
    simp [FrequencyCache.perform, close, clear] at hslot
  | maintain => exact h

theorem only_new {chance : Chance} {config : LocalConfig} (h : new chance config = .ok c) :
    c.Only P := by
  obtain ⟨-, -, readCapacity, -, rfl⟩ := exists_eq_empty_of_new h
  have ht := Admission.tracks_new chance.rowHash config.maxCost config.numCounters
  exact ⟨fun key slot hslot => by simp [empty] at hslot, tracked_of_entries ht nofun⟩

/-! ## Costs that fit together -/

/-- Entries with a property and different keys cost together less than a word can tell. -/
def FitTogether (P : Entry Unit → Prop) : Prop :=
  ∀ es : List (Entry Unit), (es.map Entry.key).Nodup → (∀ e ∈ es, P e) → costSum es < UInt64.size

theorem overflowed_hear (hP : FitTogether P) (h : c.Only P) (hsized : c.policy.Sized bound)
    (hfit : c.overflowed = false) (u : Use) : (c.hear u).overflowed = false := by
  have hu := c.hears u
  unfold overflowed at hfit ⊢
  revert hu
  generalize (c.hear u).policy = q
  obtain ⟨s, hs⟩ := hsized.holds
  have ht : c.policy.Tracks s.all := ⟨s, hs, .refl _⟩
  rintro (_ | _ | _ | hslot)
  · exact hfit
  · exact ht.overflowed_recordReads hfit (hP _ hs.nodup (h.entries hs)) _ _
  · exact hfit
  · rename_i key slot
    have hlt := hP (⟨key, (), slot.cost⟩ :: without s.all key)
      (Admission.nodup_cons_without hs.nodup _ _ _) fun e he => by
        rcases List.mem_cons.1 he with rfl | he
        · exact h.resident _ _ hslot
        · exact h.entries hs e (RecencyList.mem_without.1 he).1
    rw [RecencyList.costSum_cons] at hlt
    exact ht.overflowed_offer hfit hlt

/-- No sum in a pass is too great when all entries fit together. -/
theorem overflowed_maintain (hP : FitTogether P) (h : c.Only P)
    (hsized : c.policy.Sized c.maxCost) (hfit : c.overflowed = false) :
    c.maintain.overflowed = false := by
  have hheard : c.heard.overflowed = false :=
    (foldl_hear_induction (P := fun d => d.Only P ∧ d.policy.Sized c.maxCost ∧
        d.overflowed = false) (c := c.emptied)
      (fun _ u hd => ⟨hd.1.hear hd.2.1 u, sized_hear hd.2.1 u,
        overflowed_hear hP hd.1 hd.2.1 hd.2.2 u⟩)
      ⟨⟨h.resident, h.tracked⟩, hsized, hfit⟩ c.waiting).2.2
  obtain ⟨s, hs⟩ := (sized_heard hsized).holds
  have ht : c.heard.policy.Tracks s.all := ⟨s, hs, .refl _⟩
  have hlt := hP _ hs.nodup ((h.heard hsized).entries hs)
  have hsummed : c.heard.summed = c.heard.policy := by
    rw [summed, (ht.sumsFit hheard hlt).2, Admission.noteSum_false]
  rw [maintain_eq, overflowed, policy_enforceBound, hsummed]
  exact ht.overflowed_evict hheard hlt _

theorem overflowed_perform (hfit : c.overflowed = false) (r : LocalRequest V) :
    (c.perform r).overflowed = false := by
  cases r with
  | get key =>
    obtain ⟨reads, hits, misses, heq⟩ := c.get_frame key
    rwa [perform, heq]
  | set key value cost =>
    unfold perform
    dsimp only
    split_ifs <;> exact hfit
  | delete key => exact (c.policy.overflowed_remove key).trans hfit
  | clear | close | maintain => exact hfit

theorem overflowed_new {chance : Chance} {config : LocalConfig} (h : new chance config = .ok c) :
    c.overflowed = false := by
  obtain ⟨-, -, readCapacity, -, rfl⟩ := exists_eq_empty_of_new h
  rfl

/-- No sum in a run is too great when all that it sets fits together. -/
theorem overflowed_run {chance : Chance} {config : LocalConfig} (h : new chance config = .ok c)
    (hP : FitTogether P) {rs : List (LocalRequest V)}
    (hrs : ∀ key value cost, .set key value cost ∈ rs → P ⟨key, (), cost⟩) :
    (c.run rs).Only P ∧ (c.run rs).overflowed = false := by
  induction rs using List.reverseRecOn with
  | nil => exact ⟨only_new h, overflowed_new h⟩
  | append_singleton rs r ih =>
    obtain ⟨honly, hfit⟩ :=
      ih fun key value cost hm => hrs key value cost (List.mem_append_left _ hm)
    have hsized := sized_run h rs
    have hperformed := honly.perform hsized (r := r) fun key value cost heq =>
      hrs key value cost (by simp [heq])
    have hstill := overflowed_perform hfit r
    rw [run_append_singleton, serve_eq]
    split_ifs
    · have hs := sized_perform hsized r
      exact ⟨hperformed.maintain hs, overflowed_maintain hP hperformed hs hstill⟩
    · exact ⟨hperformed, hstill⟩

/-! ## What a run sets -/

/-- The entry that a request sets. -/
def setEntry? : LocalRequest V → Option (Entry Unit)
  | .set key _ cost => some ⟨key, (), cost⟩
  | _ => none

theorem costSum_setEntries (rs : List (LocalRequest V)) :
    costSum (rs.filterMap setEntry?) = writtenCost rs := by
  induction rs with
  | nil => rfl
  | cons r rs ih =>
    rw [writtenCost, List.map_cons, List.sum_cons, ← writtenCost, ← ih,
      List.filterMap_cons]
    cases r with
    | set key value cost => exact RecencyList.costSum_cons _ _
    | get _ | delete _ | clear | close | maintain => exact (Nat.zero_add _).symm

/-- Entries that a run sets, each under a key of its own, cost no more than all its sets. -/
theorem fitTogether_of_writtenCost {rs : List (LocalRequest V)}
    (hfit : writtenCost rs < UInt64.size) :
    FitTogether fun e => ∃ value, .set e.key value e.cost ∈ rs := by
  intro es hn hes
  have hsub : es ⊆ rs.filterMap setEntry? := by
    intro e he
    obtain ⟨value, hset⟩ := hes e he
    exact List.mem_filterMap.2 ⟨_, hset, rfl⟩
  obtain ⟨es', hperm, hsubl⟩ := List.subperm_of_subset (hn.of_map _) hsub
  have hle := RecencyList.costSum_le_of_sublist hsubl
  rw [RecencyList.costSum_perm hperm, costSum_setEntries] at hle
  exact Nat.lt_of_le_of_lt hle hfit

/-- No sum in a run is too great when its sets together cost less than a word can tell. -/
theorem overflowed_run_of_writtenCost {chance : Chance} {config : LocalConfig}
    (h : new chance config = .ok c) {rs : List (LocalRequest V)}
    (hfit : writtenCost rs < UInt64.size) : (c.run rs).overflowed = false :=
  (overflowed_run h (fitTogether_of_writtenCost hfit) fun _ value _ hm => ⟨value, hm⟩).2

end FrequencyCache

end PodCache
