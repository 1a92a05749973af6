import PodCache.Proofs.Local.Pass

/-!
# Scans spare protected keys

The closing step of a maintenance pass takes keys from probation only, and a write turns away no key
but the written one and those of the window (`EvictsFromProbation`).  So a protected key stays
resident until it is removed by a request or goes back on probation, and the latter takes a use of a
key of the main segment (`Demotes`).  A scan, which sets fresh keys once each, has no such use: it
leaves the protected part as it is, however many keys it sets (`scans_spare_protected_keys`).
-/

namespace PodCache

open RecencyList (without)

/-- The key that a request sets. -/
def LocalRequest.setKey? {V : Type} : LocalRequest V → Option String
  | .set key _ _ => some key
  | _ => none

namespace FrequencyCache

variable {V : Type} {c d : FrequencyCache V} {us : List Use} {u : Use} {key k : String}
  {bound : Nat} {keys : List String}

/-! ## What takes protection from a key -/

/-- Whether a use promotes a key on probation or rewrites a key of the main segment. -/
def Promotes (c : FrequencyCache V) : Use → Prop
  | .read key _ => c.policy.probation.contains key = true
  | .write key => c.resident.contains key = true ∧ c.policy.inMain key = true

/-- In the next pass such a use puts a protected key back on probation. -/
def Demotes (c : FrequencyCache V) (key : String) : Prop :=
  ∃ d u, c.emptied.Meets c.waiting d u ∧ d.Promotes u ∧
    d.policy.protection.contains key = true ∧ (d.hear u).policy.probation.contains key = true

/-- Whether a request removes a key or makes a pass in which it is put back on probation. -/
def Unprotects (c : FrequencyCache V) (key : String) : LocalRequest V → Prop
  | .delete k => k = key
  | .clear => True
  | .close => True
  | r => c.MakesPass r ∧ (c.perform r).Demotes key

/-- No request of a sequence takes its protection from a key. -/
def KeepsProtected (key : String) : FrequencyCache V → List (LocalRequest V) → Prop
  | _, [] => True
  | c, r :: rs => ¬ c.Unprotects key r ∧ KeepsProtected key (c.serve r) rs

theorem protected_hear (h : c.policy.Sized bound) (u : Use)
    (hk : c.policy.protection.contains key = true) :
    (c.hear u).policy.protection.contains key = true ∨
      c.Promotes u ∧ (c.hear u).policy.probation.contains key = true := by
  have hu := c.hears u
  revert hu
  generalize (c.hear u).policy = q
  obtain ⟨s, hs⟩ := h.holds
  have hks := hs.protection.contains_iff.1 hk
  rintro (_ | _ | _ | hslot)
  · exact .inl hk
  · obtain ⟨s', hs', hread⟩ := hs.recordReads _ _
    rw [hs'.protection.contains_iff, hs'.probation.contains_iff]
    refine (hread.of_protection hks).imp_right fun hd => ⟨?_, hd.2⟩
    exact hs.probation.contains_iff.2 hd.1
  · exact .inl hk
  · obtain ⟨s', dropped, hs', -, hoffer⟩ := hs.offer _ _
    rw [hs'.protection.contains_iff, hs'.probation.contains_iff]
    refine (hoffer.of_protection hks).imp_right fun hd => ⟨⟨?_, ?_⟩, hd.2⟩
    · rw [Std.TreeMap.contains_eq_isSome_getElem?, hslot]
      rfl
    · exact hs.inMain_iff.2 hd.1

theorem protected_foldl_hear (h : c.policy.Sized bound)
    (hk : c.policy.protection.contains key = true)
    (hstay : ∀ d u, c.Meets us d u → d.Promotes u → d.policy.protection.contains key = true →
      (d.hear u).policy.probation.contains key = false) :
    (us.foldl hear c).policy.protection.contains key = true := by
  induction us generalizing c with
  | nil => exact hk
  | cons u us ih =>
    apply ih (sized_hear h u)
    · rcases protected_hear h u hk with hstill | ⟨hp, hdemoted⟩
      · exact hstill
      · rw [hstay c u .here hp hk] at hdemoted
        cases hdemoted
    · intro d u' hm
      exact hstay d u' (.later hm)

theorem protected_maintain (h : c.policy.Sized c.maxCost)
    (hfit : c.maintain.overflowed = false) (hk : c.policy.protection.contains key = true)
    (hd : ¬ c.Demotes key) :
    c.maintain.policy.protection.contains key = true := by
  have hheard : c.heard.policy.protection.contains key = true := by
    apply protected_foldl_hear (c := c.emptied) h hk
    intro d u hm hp hkd
    by_contra hb
    exact hd ⟨d, u, hm, hp, hkd, by simpa using hb⟩
  obtain ⟨probation, heq⟩ := policy_maintain h hfit
  rw [heq]
  exact hheard

theorem protected_perform (h : c.policy.Sized bound) {r : LocalRequest V}
    (hk : c.policy.protection.contains key = true) (hu : ¬ c.Unprotects key r) :
    (c.perform r).policy.protection.contains key = true := by
  cases r with
  | get k =>
    obtain ⟨reads, hits, misses, heq⟩ := c.get_frame k
    rw [perform, heq]
    exact hk
  | set k value cost =>
    unfold perform
    dsimp only
    split_ifs <;> exact hk
  | delete k =>
    obtain ⟨s, hs⟩ := h.holds
    rw [perform, delete, (hs.remove k).protection.contains_iff]
    obtain ⟨e, he, rfl⟩ := List.mem_map.1 (hs.protection.contains_iff.1 hk)
    have hne : e.key ≠ k := fun heq => hu heq.symm
    exact List.mem_map_of_mem (RecencyList.mem_without.2 ⟨he, hne⟩)
  | clear => exact (hu trivial).elim
  | close => exact (hu trivial).elim
  | maintain => exact hk

theorem protected_serve (h : c.policy.Sized c.maxCost) {r : LocalRequest V}
    (hfit : (c.serve r).overflowed = false) (hk : c.policy.protection.contains key = true)
    (hu : ¬ c.Unprotects key r) : (c.serve r).policy.protection.contains key = true := by
  have hp := protected_perform h hk hu
  rw [serve_eq] at hfit ⊢
  split_ifs at hfit ⊢ with hpass
  · apply protected_maintain (sized_perform h r) hfit hp
    intro hd
    cases r with
    | set k value cost => exact hu ⟨hpass, hd⟩
    | maintain => exact hu ⟨hpass, hd⟩
    | get _ | delete _ | clear | close => exact hpass
  · exact hp

theorem protected_run (h : c.policy.Sized c.maxCost) {rs : List (LocalRequest V)}
    (hfit : (c.run rs).overflowed = false)
    (hk : c.policy.protection.contains key = true) (hkeeps : c.KeepsProtected key rs) :
    (c.run rs).policy.protection.contains key = true := by
  induction rs generalizing c with
  | nil => exact hk
  | cons r rs ih =>
    have hserve := overflowed_of_run (show ((c.serve r).run rs).overflowed = false from hfit)
    exact ih (sized_serve h r) hfit (protected_serve h hserve hk hkeeps.1) hkeeps.2

/-! ## What a pass gives up -/

/-- What the next pass gives up: its closing step takes keys from probation only and leaves window
and protected part alone, and a write turns away itself or a key of the window. -/
structure EvictsFromProbation (c : FrequencyCache V) : Prop where
  victims : ∀ e ∈ (c.heard.policy.evict (c.heard.policy.totalCost - c.maxCost)).1,
    c.heard.policy.probation.contains e.key = true ∧
      c.heard.policy.protection.contains e.key = false ∧
      c.heard.policy.window.contains e.key = false
  removed : ∀ key, c.maintain.resident[key]? ≠ c.heard.resident[key]? →
    c.heard.policy.probation.contains key = true ∧
      c.heard.policy.protection.contains key = false ∧
      c.heard.policy.window.contains key = false
  window_eq : c.maintain.policy.window = c.heard.policy.window
  protection_eq : c.maintain.policy.protection = c.heard.policy.protection
  rejected : ∀ d key (slot : Slot V), c.emptied.Meets c.waiting d (.write key) →
    d.resident[key]? = some slot → ∀ k ∈ (d.policy.offer key slot.cost).1,
      d.policy.inMain k = false ∧ (k = key ∨ d.policy.window.contains k = true)

theorem evictsFromProbation (h : c.policy.Sized c.maxCost)
    (hfit : c.maintain.overflowed = false) : c.EvictsFromProbation := by
  have hheard := sized_heard h
  obtain ⟨-, -, hprobation, -⟩ := Admission.overflowed_eq_false_iff.1 (sumsFit_heard hfit).1
  have hvictims (e) (he : e ∈ (c.heard.policy.evict (c.heard.policy.totalCost - c.maxCost)).1) := by
    rw [← maxCost_heard] at he
    exact hheard.contains_of_evict hprobation he
  obtain ⟨probation, heq⟩ := policy_maintain h hfit
  refine ⟨hvictims, fun key hne => ?_, by rw [heq], by rw [heq],
    fun d key slot hm hslot k hk => ?_⟩
  · rw [maintain_eq, resident_enforceBound, summed_heard hfit, maxCost_heard] at hne
    split_ifs at hne with hmem
    · obtain ⟨e, he, rfl⟩ := List.mem_map.1 hmem
      exact hvictims e he
    · exact (hne rfl).elim
  · have hd : d.policy.Sized c.maxCost :=
      Meets.induction (P := fun d => d.policy.Sized c.maxCost) (fun _ u hd => sized_hear hd u) hm h
    obtain ⟨s, hs⟩ := hd.holds
    obtain ⟨s', dropped, -, hdropped, hoffer⟩ := hs.offer key slot.cost
    rw [hdropped] at hk
    rw [Bool.eq_false_iff, ne_eq, hs.inMain_iff, hs.window.contains_iff]
    exact ⟨hoffer.dropped_not_main hs hk, hoffer.of_dropped hk⟩

/-! ## Scans -/

/-- A scan: keys that are not resident are set, each of them once, and passes are made. -/
structure Scans (c : FrequencyCache V) (rs : List (LocalRequest V)) : Prop where
  requests : ∀ r ∈ rs, r = .maintain ∨
    ∃ key value cost, r = .set key value cost ∧ c.resident[key]? = none
  once : (rs.filterMap LocalRequest.setKey?).Nodup

theorem contains_offer_eq_false {p : Admission} (h : p.Sized bound) {cost : Nat} (hne : k ≠ key)
    (hk : p.contains k = false) : (p.offer key cost).2.contains k = false := by
  obtain ⟨s, hs⟩ := h.holds
  have ht : p.Tracks s.all := ⟨s, hs, .refl _⟩
  obtain ⟨kept, dropped, hkept, -, hperm⟩ := ht.offer key cost
  rw [Bool.eq_false_iff, ne_eq, ht.contains_iff] at hk
  rw [Bool.eq_false_iff, ne_eq, hkept.contains_iff]
  intro hm
  obtain ⟨e, he, rfl⟩ := List.mem_map.1 hm
  rcases List.mem_cons.1 (hperm.mem_iff.1 (List.mem_append_left _ he)) with rfl | he
  · exact hne rfl
  · exact hk (List.mem_map_of_mem (RecencyList.mem_without.1 he).1)

theorem contains_evict_eq_false {p : Admission} (h : p.Sized bound)
    (hk : p.contains k = false) (need : Nat) : (p.evict need).2.contains k = false := by
  obtain ⟨s, hs⟩ := h.holds
  have ht : p.Tracks s.all := ⟨s, hs, .refl _⟩
  obtain ⟨kept, hkept, hperm, -⟩ := ht.evict need
  rw [Bool.eq_false_iff, ne_eq, ht.contains_iff] at hk
  rw [Bool.eq_false_iff, ne_eq, hkept.contains_iff]
  intro hm
  obtain ⟨e, he, rfl⟩ := List.mem_map.1 hm
  exact hk (List.mem_map_of_mem (hperm.mem_iff.1 (List.mem_append_left _ he)))

theorem inMain_eq_false {p : Admission} (h : p.contains k = false) : p.inMain k = false := by
  simp only [Admission.contains, Bool.or_eq_false_iff] at h
  simp [Admission.inMain, h.1.2, h.2]

/-- Writes of keys that are not tracked leave the protected part alone. -/
theorem protection_hear_writes (h : c.policy.Sized bound) (hn : keys.Nodup)
    (hfresh : ∀ k ∈ keys, c.policy.contains k = false) :
    ((keys.map .write).foldl hear c).policy.protection = c.policy.protection ∧
      ∀ k, k ∉ keys → c.policy.contains k = false →
        ((keys.map .write).foldl hear c).policy.contains k = false := by
  induction keys generalizing c with
  | nil => exact ⟨rfl, fun _ _ hk => hk⟩
  | cons key keys ih =>
    obtain ⟨hkey, hn⟩ := List.nodup_cons.1 hn
    -- the key is not tracked when its turn comes, so it starts in the window
    have hstep : (c.hear (.write key)).policy.protection = c.policy.protection ∧
        ∀ k, k ≠ key → c.policy.contains k = false →
          (c.hear (.write key)).policy.contains k = false := by
      have hu := c.hears (.write key)
      revert hu
      generalize (c.hear (.write key)).policy = q
      rintro (_ | _ | _ | _)
      · exact ⟨rfl, fun _ _ hk => hk⟩
      · have hmain := inMain_eq_false (hfresh key List.mem_cons_self)
        obtain ⟨s, hs⟩ := h.holds
        exact ⟨hs.protection_offer hmain _, fun k hne hk => contains_offer_eq_false h hne hk⟩
    obtain ⟨hprot, hrest⟩ := ih (sized_hear h (.write key)) hn fun k hk =>
      hstep.2 k (fun heq => hkey (heq ▸ hk)) (hfresh k (List.mem_cons_of_mem _ hk))
    refine ⟨hprot.trans hstep.1, fun k hk hfalse => ?_⟩
    rw [List.mem_cons, not_or] at hk
    exact hrest k hk.2 (hstep.2 k hk.1 hfalse)

/-- The keys that wait or are still to be set are different and not tracked, and no reads wait. -/
structure Scanning (c : FrequencyCache V) (keys : List String) : Prop where
  unread : c.reads.drain.1 = []
  idle : c.reads.idle = ReadBuffer.noReads
  once : (c.writes ++ keys).Nodup
  fresh : ∀ k ∈ c.writes ++ keys, c.policy.contains k = false

theorem Scanning.maintain (h : c.Scanning keys) (hs : c.policy.Sized c.maxCost)
    (hfit : c.maintain.overflowed = false) :
    c.maintain.policy.protection = c.policy.protection ∧ c.maintain.Scanning keys := by
  obtain ⟨hn, hkeys, hdisj⟩ := List.nodup_append'.1 h.once
  have hwaiting : c.waiting = c.writes.map .write := by
    have hnil := ((c.shuffle c.passes).perm []).eq_nil
    rw [waiting, h.unread, hnil]
    rfl
  have hfold := protection_hear_writes (c := c.emptied) hs hn fun k hk =>
    h.fresh k (List.mem_append_left _ hk)
  rw [← hwaiting] at hfold
  obtain ⟨hprot, hrest⟩ : c.heard.policy.protection = c.policy.protection ∧
    ∀ k, k ∉ c.writes → c.policy.contains k = false → c.heard.policy.contains k = false := hfold
  obtain ⟨probation, heq⟩ := policy_maintain hs hfit
  obtain ⟨resident, policy, evictions, hframe⟩ := c.maintain_trims.frame
  have hwrites : c.maintain.writes = [] := by rw [hframe]
  have hreads : c.maintain.reads = c.reads.drain.2 := by rw [hframe]
  refine ⟨by rw [heq, hprot], ⟨?_, ?_, ?_, fun k hk => ?_⟩⟩
  · rw [hreads]
    change ReadBuffer.reads c.reads.idle = []
    rw [h.idle]
    rfl
  · rw [hreads]
    rfl
  · rw [hwrites]
    exact hkeys
  · rw [hwrites, List.nil_append] at hk
    rw [maintain_eq, policy_enforceBound, summed_heard hfit]
    apply contains_evict_eq_false (sized_heard hs)
    exact hrest k (fun hw => hdisj hw hk) (h.fresh k (List.mem_append_right _ hk))

/-- Setting the next key of a scan. -/
theorem Scanning.set (h : c.Scanning (key :: keys)) (hs : c.policy.Sized c.maxCost) {value : V}
    {cost : Nat} (hfit : (c.serve (.set key value cost)).overflowed = false) :
    (c.serve (.set key value cost)).policy.protection = c.policy.protection ∧
      (c.serve (.set key value cost)).Scanning keys := by
  have hperformed : (c.perform (.set key value cost)).policy = c.policy ∧
      (c.perform (.set key value cost)).Scanning keys := by
    unfold perform
    dsimp only
    split_ifs
    · refine ⟨rfl, h.unread, h.idle, ?_, fun k hk => h.fresh k ?_⟩
      · exact h.once.sublist ((List.sublist_cons_self key keys).append_left _)
      · simp only [List.mem_append, List.mem_cons] at hk ⊢
        tauto
    · refine ⟨rfl, h.unread, h.idle, ?_, fun k hk => h.fresh k ?_⟩
      · simpa using h.once
      · simpa using hk
  rw [serve_eq] at hfit ⊢
  split_ifs at hfit ⊢
  · obtain ⟨hprot, hscan⟩ := hperformed.2.maintain (sized_perform hs _) hfit
    exact ⟨hprot.trans (congrArg Admission.protection hperformed.1), hscan⟩
  · exact ⟨congrArg Admission.protection hperformed.1, hperformed.2⟩

theorem Scanning.protection_run {rs : List (LocalRequest V)}
    (h : c.Scanning (rs.filterMap LocalRequest.setKey?)) (hs : c.policy.Sized c.maxCost)
    (hfit : (c.run rs).overflowed = false)
    (hrs : ∀ r ∈ rs, r = .maintain ∨ ∃ key value cost, r = .set key value cost) :
    (c.run rs).policy.protection = c.policy.protection := by
  induction rs generalizing c with
  | nil => rfl
  | cons r rs ih =>
    have hrest : ∀ r ∈ rs, r = .maintain ∨ ∃ key value cost, r = .set key value cost :=
      fun r hr => hrs r (List.mem_cons_of_mem _ hr)
    have hserve := overflowed_of_run (show ((c.serve r).run rs).overflowed = false from hfit)
    rcases hrs r List.mem_cons_self with rfl | ⟨key, value, cost, rfl⟩
    · have hbegin : c.Scanning (rs.filterMap LocalRequest.setKey?) := h
      obtain ⟨hprot, hscan⟩ := hbegin.maintain hs hserve
      exact (ih hscan (sized_serve hs .maintain) hfit hrest).trans hprot
    · have hbegin : c.Scanning (key :: rs.filterMap LocalRequest.setKey?) := h
      obtain ⟨hprot, hscan⟩ := hbegin.set hs hserve
      exact (ih hscan (sized_serve hs (.set key value cost)) hfit hrest).trans hprot

/-! ## Main results -/

theorem idle_serve (h : c.reads.idle = ReadBuffer.noReads) (r : LocalRequest V) :
    (c.serve r).reads.idle = ReadBuffer.noReads := by
  have hmaintain (d : FrequencyCache V) : d.maintain.reads.idle = ReadBuffer.noReads := by
    obtain ⟨resident, policy, evictions, hframe⟩ := d.maintain_trims.frame
    rw [hframe]
    rfl
  rw [serve_eq]
  split_ifs
  · exact hmaintain _
  · cases r with
    | get key =>
      change (c.get key).2.reads.idle = _
      unfold get
      cases c.resident[key]? <;> exact h
    | set key value cost =>
      unfold perform
      dsimp only
      split_ifs <;> exact h
    | delete _ => exact h
    | clear | close => rfl
    | maintain => exact h

theorem idle_run {chance : Chance} {config : LocalConfig} (h : new chance config = .ok c)
    (rs : List (LocalRequest V)) : (c.run rs).reads.idle = ReadBuffer.noReads := by
  induction rs using List.reverseRecOn with
  | nil =>
    obtain ⟨-, -, readCapacity, -, rfl⟩ := exists_eq_empty_of_new h
    rfl
  | append_singleton rs r ih =>
    rw [run_append_singleton]
    exact idle_serve ih r

/-- What is resident after a run was so before, or the run set it. -/
theorem slot_of_run {rs : List (LocalRequest V)} {slot : Slot V}
    (h : (c.run rs).resident[key]? = some slot) :
    c.resident[key]? = some slot ∨ .set key slot.value slot.cost ∈ rs := by
  induction rs using List.reverseRecOn with
  | nil => exact .inl h
  | append_singleton rs r ih =>
    rw [run_append_singleton] at h
    rcases slot_serve h with hs | ⟨-, rfl⟩
    · exact (ih hs).imp_right (List.mem_append_left _)
    · exact .inr (by simp)

theorem run_run (c : FrequencyCache V) (rs rs' : List (LocalRequest V)) :
    (c.run rs).run rs' = c.run (rs ++ rs') := by
  simp [run]

theorem contains_of_protected {p : Admission} (h : p.protection.contains k = true) :
    p.contains k = true := by
  simp [Admission.contains, h]

/-- In every pass of a run whose sums of costs fit into words the closing step takes keys from
probation only and the writes turn away window candidates only.  So a protected key stays protected
and resident until a request removes it or makes a pass in which the promotion or the rewrite of a
key of the main segment puts it back on probation.  In particular a scan that begins with nothing
waiting leaves the protected part as it is and every protected key resident with its value. -/
theorem scans_spare_protected_keys {chance : Chance} {config : LocalConfig}
    (h : new chance config = .ok c) (rs : List (LocalRequest V)) :
    (∀ r, (c.run rs).MakesPass r → ((c.run rs).serve r).overflowed = false →
      ((c.run rs).perform r).EvictsFromProbation) ∧
    (∀ key later, ((c.run rs).run later).overflowed = false →
      (c.run rs).policy.protection.contains key = true → (c.run rs).KeepsProtected key later →
      ((c.run rs).run later).policy.protection.contains key = true ∧
        ((c.run rs).run later).resident.contains key = true) ∧
    (∀ later, ((c.run rs).run later).overflowed = false →
      (c.run rs).writes = [] → (c.run rs).reads.drain.1 = [] → (c.run rs).Scans later →
      ((c.run rs).run later).policy.protection = (c.run rs).policy.protection ∧
      ∀ key, (c.run rs).policy.protection.contains key = true →
        ∃ slot, (c.run rs).resident[key]? = some slot ∧
          ((c.run rs).run later).resident[key]? = some slot) := by
  have hsized := sized_run h rs
  have hresident (later : List (LocalRequest V)) (key : String)
      (hk : ((c.run rs).run later).policy.protection.contains key = true) :
      ((c.run rs).run later).resident.contains key = true := by
    rw [run_run] at hk ⊢
    exact (balanced_run h (rs ++ later)).books.resident_of_contains (contains_of_protected hk)
  refine ⟨fun r hpass hfit => ?_, fun key later hfit hk hkeeps => ?_,
    fun later hfit hwrites hreads hscan => ?_⟩
  · rw [serve_eq, if_pos hpass] at hfit
    exact evictsFromProbation (sized_perform hsized r) hfit
  · have hstill := protected_run hsized hfit hk hkeeps
    exact ⟨hstill, hresident later key hstill⟩
  · have hfresh (k : String) (hk : k ∈ later.filterMap LocalRequest.setKey?) :
        (c.run rs).resident[k]? = none := by
      obtain ⟨r, hr, hset⟩ := List.mem_filterMap.1 hk
      rcases hscan.requests r hr with rfl | ⟨key, value, cost, rfl, hnone⟩
      · cases hset
      · obtain rfl := Option.some.inj hset
        exact hnone
    have hbegin : (c.run rs).Scanning (later.filterMap LocalRequest.setKey?) := by
      refine ⟨hreads, idle_run h rs, ?_, fun k hk => ?_⟩
      · rw [hwrites]
        exact hscan.once
      · rw [hwrites] at hk
        rw [Bool.eq_false_iff]
        intro hc
        have hres := (balanced_run h rs).books.resident_of_contains hc
        rw [Std.TreeMap.contains_eq_isSome_getElem?, hfresh k hk] at hres
        cases hres
    have hprot := hbegin.protection_run hsized hfit fun r hr =>
      (hscan.requests r hr).imp_right fun ⟨key, value, cost, hset, _⟩ => ⟨key, value, cost, hset⟩
    refine ⟨hprot, fun key hk => ?_⟩
    have hend := hresident later key (by rw [hprot]; exact hk)
    rw [Std.TreeMap.contains_eq_isSome_getElem?, Option.isSome_iff_exists] at hend
    obtain ⟨slot, hslot⟩ := hend
    refine ⟨slot, (slot_of_run hslot).resolve_right fun hset => ?_, hslot⟩
    -- a key of the scan is not resident when it begins, so it is not protected
    have hnone := hfresh key (List.mem_filterMap.2 ⟨_, hset, rfl⟩)
    have hres := hresident [] key hk
    rw [Std.TreeMap.contains_eq_isSome_getElem?] at hres
    change (c.run rs).resident[key]?.isSome = true at hres
    rw [hnone] at hres
    cases hres

/-- A key that was read on probation outlives a scan of two keys. -/
theorem scan_spares_read_key :
    ∃ c : FrequencyCache Nat, new charChance threeEntries = .ok c ∧
      let d := c.run [.set "a" 1 1, .set "b" 2 1, .maintain, .get "a", .maintain]
      let scan : List (LocalRequest Nat) := [.set "c" 3 1, .set "d" 4 1, .maintain]
      (d.run scan).overflowed = false ∧ (d.perform .maintain).EvictsFromProbation ∧
      d.policy.protection.contains "a" = true ∧
      (d.run [.set "c" 3 1, .maintain]).resident.contains "a" = true ∧
      (d.run scan).policy.protection = d.policy.protection ∧
      ∃ slot, (d.run scan).resident["a"]? = some slot := by
  refine ⟨_, rfl, ?_⟩
  intro d scan
  have hk : d.policy.protection.contains "a" = true := by decide +kernel
  obtain ⟨hpass, hkeeps, hscan⟩ := scans_spare_protected_keys
    (show new (V := Nat) charChance threeEntries = .ok _ from rfl)
    [.set "a" 1 1, .set "b" 2 1, .maintain, .get "a", .maintain]
  have hshield : d.KeepsProtected "a" [.set "c" 3 1, .maintain] := by
    have hwaiting : (d.serve (.set "c" 3 1)).waiting = [.write "c"] := by decide +kernel
    refine ⟨fun hu => absurd hu.1 (by decide +kernel), ?_, trivial⟩
    rintro ⟨-, e, u, hm, hp, -⟩
    change Meets _ (d.serve (.set "c" 3 1)).waiting e u at hm
    rw [hwaiting] at hm
    cases hm with
    | here => exact absurd hp.2 (by decide +kernel)
    | later hm => cases hm
  have hfit : (d.run scan).overflowed = false := by decide +kernel
  obtain ⟨hprot, hres⟩ := hscan scan hfit (by decide +kernel) (by decide +kernel)
    ⟨by simp [scan]; decide +kernel, by decide +kernel⟩
  obtain ⟨slot, -, hslot⟩ := hres "a" hk
  exact ⟨hfit, hpass .maintain trivial (by decide +kernel), hk,
    (hkeeps "a" _ (by decide +kernel) hk hshield).2, hprot, slot, hslot⟩

end FrequencyCache

end PodCache
