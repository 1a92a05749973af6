import PodCache.Proofs.Local.Costs
import PodCache.Proofs.Local.RecencyOrder
import PodCache.Proofs.Local.Sketch
import PodCache.Proofs.Local.UnitUse

/-!
# Who leaves for whom

When every entry costs one, a maintenance pass takes no more keys out of the main segment than it
moves candidates from the window into a full main segment, and each of these candidates is at least
as frequent, by the estimate of the sketch, as the key that was next to leave when it came
(`displaced_by_candidates`).

The keys that leave need not be the ones that the candidates were compared with.  The candidates of
a pass all compete with the key that is next to leave, and the bound is enforced only when all have
come, so that the second one may cost a key that is more frequent than both
(`cold_batch_displaces_hot_key`).
-/

namespace PodCache

open RecencyList (without costSum costSum_nil costSum_append costSum_reverse)

/-- The sum of the costs of the keys in the main segment. -/
def Admission.mainSum (p : Admission) : Nat :=
  costSum (p.probation.toList ++ p.protection.toList)

theorem Admission.Holds.mainSum_eq {p : Admission} {s : Segments} (h : p.Holds s) :
    p.mainSum = costSum s.main := by
  rw [Admission.mainSum, h.probation.toList_eq, h.protection.toList_eq, Segments.main]

/-- What exceeds the bound exceeds the capacity of the main segment. -/
theorem Admission.Sized.excess_le_main {p : Admission} {bound : Nat} (h : p.Sized bound) :
    p.totalCost - bound ≤ p.mainSum - p.mainCapacity := by
  obtain ⟨s, hs⟩ := h.holds
  have hb := hs.probation.totalCost_le
  have ht := hs.protection.totalCost_le
  have htotal := p.totalCost_le_add
  have hw := h.window_le
  have hshared := h.shared
  rw [hs.mainSum_eq, Admission.costSum_main]
  omega

namespace FrequencyCache

variable {V : Type} {c d : FrequencyCache V} {us : List Use} {u : Use} {x key : String}
  {bound : Nat} {s s' : Segments}

/-! ## Caches of entries that cost one -/

/-- Everything that is resident or tracked costs one. -/
def UnitCosts (c : FrequencyCache V) : Prop := c.Only fun e => e.cost = 1

theorem unitUse_hear (h : c.UnitCosts) (hsized : c.policy.Sized bound) (hs : c.policy.Holds s)
    (hfit : (c.hear u).overflowed = false) :
    ∃ s', (c.hear u).policy.Holds s' ∧ c.policy.UnitUse (c.hear u).policy s s' := by
  have hu := c.hears u
  unfold overflowed at hfit
  revert hu hfit
  generalize (c.hear u).policy = q
  rintro hfit (_ | _ | _ | hslot)
  · exact ⟨s, hs, .settled rfl (Nat.le_refl _)⟩
  · obtain ⟨s', hs', hread⟩ := hs.recordReads _ _
    obtain ⟨hmain, hw⟩ := hread.costSum_eq hs
    exact ⟨s', hs', .settled hmain hw.ge⟩
  · exact ⟨s, hs, .settled rfl (Nat.le_refl _)⟩
  · rename_i key slot
    have hone : slot.cost = 1 := h.resident key slot hslot
    rw [hone] at hfit ⊢
    exact hs.offer_unit hsized (h.entries hs) hfit

/-! ## Candidates that enter a full main segment -/

/-- With a use a candidate moves from the window into the full main segment, and it is at least as
frequent as the key that is next to leave. -/
def Enters (c : FrequencyCache V) (u : Use) (x : String) : Prop :=
  c.policy.window.contains x = true ∧ (c.hear u).policy.probation.contains x = true ∧
    c.policy.mainCapacity ≤ c.policy.mainSum ∧
    ∃ victim, c.policy.mainVictim = some victim ∧
      (c.hear u).policy.sketch.estimate victim ≤ (c.hear u).policy.sketch.estimate x

theorem exists_mainVictim (hs : c.policy.Holds s) (hk : c.policy.inMain key = true) :
    ∃ victim, c.policy.mainVictim = some victim := by
  rw [← Option.isSome_iff_exists, Option.isSome_iff_ne_none]
  intro hnone
  rw [Admission.mainVictim, Option.or_eq_none_iff] at hnone
  rw [hs.probation.peekBack_eq, hs.protection.peekBack_eq] at hnone
  have hb : s.probation = [] := RecencyList.lastKey_eq_none_iff.1 hnone.1
  have ht : s.protection = [] := RecencyList.lastKey_eq_none_iff.1 hnone.2
  rw [hs.inMain_iff, Segments.main, hb, ht] at hk
  cases hk

/-- A use lets the main segment grow beyond its capacity only for such a candidate, and by one. -/
theorem mainSum_hear (h : c.UnitCosts) (hsized : c.policy.Sized bound)
    (hk : c.policy.inMain key = true) (hfit : (c.hear u).overflowed = false) :
    (c.hear u).policy.mainSum ≤ max c.policy.mainSum c.policy.mainCapacity ∨
      (c.hear u).policy.mainSum = c.policy.mainSum + 1 ∧ ∃ x, c.Enters u x := by
  obtain ⟨s, hs⟩ := hsized.holds
  obtain ⟨s', hs', huse⟩ := unitUse_hear h hsized hs hfit
  rw [hs'.mainSum_eq, hs.mainSum_eq]
  cases huse with
  | settled hmain _ =>
    refine .inl ?_
    rw [hmain]
    exact Nat.le_max_left _ _
  | @entered e front he hcost _ haccepted =>
    rw [Admission.costSum_entered front hcost]
    by_cases hroom : costSum s.main + 1 ≤ c.policy.mainCapacity
    · exact .inl (hroom.trans (Nat.le_max_right _ _))
    · obtain ⟨victim, hvictim⟩ := exists_mainVictim hs hk
      refine .inr ⟨rfl, e.key, ?_, ?_, ?_, victim, hvictim, ?_⟩
      · exact hs.window.contains_iff.2 (List.mem_map_of_mem he)
      · exact hs'.probation.contains_iff.2 (by simp)
      · rw [hs.mainSum_eq]
        omega
      · exact haccepted.resolve_left hroom victim hvictim

theorem capacities_hear (c : FrequencyCache V) (u : Use) :
    (c.hear u).policy.windowCapacity = c.policy.windowCapacity ∧
      (c.hear u).policy.mainCapacity = c.policy.mainCapacity := by
  have hu := c.hears u
  revert hu
  generalize (c.hear u).policy = q
  rintro (_ | _ | _ | _)
  · exact ⟨rfl, rfl⟩
  · obtain ⟨_, _, _, heq⟩ := c.policy.recordReads_frame _ _
    rw [heq]
    exact ⟨rfl, rfl⟩
  · exact ⟨rfl, rfl⟩
  · obtain ⟨_, _, _, _, heq⟩ := c.policy.offer_frame _ _
    rw [heq]
    exact ⟨rfl, rfl⟩

/-- As many different candidates enter the full main segment as it exceeds its capacity by more than
before. -/
theorem exists_entrants (h : c.UnitCosts) (hsized : c.policy.Sized bound)
    (hk : c.policy.inMain key = true) (us : List Use)
    (hfit : (us.foldl FrequencyCache.hear c).overflowed = false) :
    ∃ xs : List String, xs.Nodup ∧
      (∀ x ∈ xs, c.policy.inMain x = false ∧ ∃ d u, c.Meets us d u ∧ d.Enters u x) ∧
      (us.foldl FrequencyCache.hear c).policy.mainSum ≤
        max c.policy.mainSum c.policy.mainCapacity + xs.length := by
  induction us generalizing c with
  | nil => exact ⟨[], List.nodup_nil, nofun, Nat.le_max_left _ _⟩
  | cons u us ih =>
    obtain ⟨xs, hn, hxs, hle⟩ :=
      ih (h.hear hsized u) (sized_hear hsized u) (inMain_hear hsized u hk) hfit
    rw [(c.capacities_hear u).2] at hle
    have hlater : ∀ x ∈ xs, c.policy.inMain x = false ∧
        ∃ d u', c.Meets (u :: us) d u' ∧ d.Enters u' x := by
      intro x hx
      obtain ⟨hmain, d, u', hm, henters⟩ := hxs x hx
      refine ⟨?_, d, u', .later hm, henters⟩
      rw [Bool.eq_false_iff] at hmain ⊢
      exact fun hin => hmain (inMain_hear hsized u hin)
    have hheard := overflowed_of_foldl_hear
      (show (us.foldl hear (c.hear u)).overflowed = false from hfit)
    rcases mainSum_hear h hsized hk hheard with hstep | ⟨hstep, x, henters⟩
    · exact ⟨xs, hn, hlater, by rw [List.foldl_cons]; omega⟩
    · have hx : (c.hear u).policy.inMain x = true := by
        rw [Admission.inMain, henters.2.1, Bool.true_or]
      refine ⟨x :: xs, List.nodup_cons.2 ⟨fun hmem => ?_, hn⟩, fun y hy => ?_, ?_⟩
      · rw [(hxs x hmem).1] at hx
        cases hx
      · rcases List.mem_cons.1 hy with rfl | hy
        · refine ⟨?_, c, u, .here, henters⟩
          obtain ⟨s, hs⟩ := hsized.holds
          have hw := hs.window.contains_iff.1 henters.1
          rw [Bool.eq_false_iff, ne_eq, hs.inMain_iff, Segments.main, List.map_append,
            List.mem_append, not_or]
          exact ⟨fun hb => hs.not_mem_of_probation hb hw, hs.not_mem_protection (.inl hw)⟩
        · exact hlater y hy
      · rw [List.foldl_cons, List.length_cons]
        omega

/-! ## Estimates in a pass -/

/-- How many uses of its key the sketch counts when the policy hears of a use. -/
def counted (c : FrequencyCache V) : Use → Nat
  | .read key count => if c.policy.contains key then min count Admission.maxReads else 0
  | .write key => if c.resident.contains key then 1 else 0

/-- In the next pass the sketch is halved. -/
def Ages (c : FrequencyCache V) : Prop :=
  ∃ d u, c.emptied.Meets c.waiting d u ∧ 0 < d.counted u ∧
    d.policy.sketch.sample ≤ d.policy.sketch.increments + d.counted u

theorem estimate_le_hear
    (hyoung : c.counted u = 0 ∨
      c.policy.sketch.increments + c.counted u < c.policy.sketch.sample) (x : String) :
    c.policy.sketch.estimate x ≤ (c.hear u).policy.sketch.estimate x := by
  have hu := c.hears u
  revert hu
  generalize (c.hear u).policy = q
  rintro (_ | hk | _ | hk)
  · exact UInt8.le_refl _
  · obtain ⟨_, _, _, heq⟩ := c.policy.recordReads_frame _ _
    rw [heq]
    rw [counted, if_pos hk] at hyoung
    exact (Sketch.grown_incrementMany _ _ hyoung).estimate_le x
  · exact UInt8.le_refl _
  · rename_i key slot
    obtain ⟨_, _, _, _, heq⟩ := c.policy.offer_frame key slot.cost
    rw [heq]
    have hres : c.resident.contains key = true := by
      rw [Std.TreeMap.contains_eq_isSome_getElem?, hk]
      rfl
    rw [counted, if_pos hres] at hyoung
    have hlt := hyoung.resolve_left Nat.one_ne_zero
    exact (Sketch.grown_increment _ key hlt).estimate_le x

theorem estimate_le_foldl_hear
    (hyoung : ∀ d u, c.Meets us d u → d.counted u = 0 ∨
      d.policy.sketch.increments + d.counted u < d.policy.sketch.sample) (x : String) :
    c.policy.sketch.estimate x ≤ (us.foldl hear c).policy.sketch.estimate x := by
  induction us generalizing c with
  | nil => exact UInt8.le_refl _
  | cons u us ih =>
    have hrest := ih fun d u' hm => hyoung d u' (.later hm)
    exact UInt8.le_trans (estimate_le_hear (hyoung c u .here) x) hrest

theorem Meets.estimate_le (h : c.Meets us d u)
    (hyoung : ∀ d u, c.Meets us d u → d.counted u = 0 ∨
      d.policy.sketch.increments + d.counted u < d.policy.sketch.sample) (x : String) :
    (d.hear u).policy.sketch.estimate x ≤
      (us.foldl FrequencyCache.hear c).policy.sketch.estimate x := by
  induction h with
  | here => exact estimate_le_foldl_hear (fun d u' hm => hyoung d u' (.later hm)) x
  | later _ ih => exact ih fun d u' hm => hyoung d u' (.later hm)

/-! ## The keys that leave -/

/-- In the next pass a candidate enters the full main segment, and its estimate at the end of the
pass is not lower than then. -/
def Displaces (c : FrequencyCache V) (x : String) : Prop :=
  ∃ d u, c.emptied.Meets c.waiting d u ∧ d.Enters u x ∧
    (d.hear u).policy.sketch.estimate x ≤ c.maintain.policy.sketch.estimate x

theorem tracks_readsHeard {es : List (Entry Unit)} (h : c.policy.Tracks es) :
    c.readsHeard.policy.Tracks es := by
  rw [readsHeard_eq]
  exact tracks_applyReads h _

theorem Books.heard (h : c.Books c.writes) : c.heard.Books [] := by
  obtain ⟨es, ht, ha⟩ := h
  rw [heard_eq]
  refine Books.applyWrites c.writes ⟨es, tracks_readsHeard ht, ?_⟩
  rw [List.append_nil, resident_readsHeard]
  exact ha

theorem not_ages (h : ¬ c.Ages) : ∀ d u, c.emptied.Meets c.waiting d u → d.counted u = 0 ∨
    d.policy.sketch.increments + d.counted u < d.policy.sketch.sample := by
  intro d u hm
  by_contra hold
  rw [not_or] at hold
  exact h ⟨d, u, hm, Nat.pos_of_ne_zero hold.1, Nat.le_of_not_lt hold.2⟩

theorem Enters.displaces (h : d.Enters u x) (hm : c.emptied.Meets c.waiting d u)
    (hyoung : ¬ c.Ages) : c.Displaces x := by
  refine ⟨d, u, hm, h, ?_⟩
  rw [sketch_maintain]
  exact hm.estimate_le (not_ages hyoung) x

/-- The keys that leave the main segment are victims of the closing step. -/
theorem mem_victims (hsized : c.policy.Sized c.maxCost) (hbooks : c.Books c.writes)
    (hfit : c.maintain.overflowed = false)
    (hk : c.policy.inMain key = true) (hgone : c.maintain.resident[key]? = none) :
    c.heard.policy.inMain key = true ∧
      key ∈
        (c.heard.policy.evict (c.heard.policy.totalCost - c.heard.maxCost)).1.map Entry.key := by
  have hmain : c.heard.policy.inMain key = true :=
    (foldl_hear_induction (P := fun d => d.policy.Sized c.maxCost ∧ d.policy.inMain key = true)
      (c := c.emptied) (fun _ u hd => ⟨sized_hear hd.1 u, inMain_hear hd.1 u hd.2⟩)
      ⟨hsized, hk⟩ c.waiting).2
  have hcontains : c.heard.policy.contains key = true := by
    rw [Admission.inMain, Bool.or_eq_true] at hmain
    simp only [Admission.contains, Bool.or_eq_true]
    tauto
  have hres := hbooks.heard.resident_of_contains hcontains
  rw [maintain_eq, resident_enforceBound, summed_heard hfit] at hgone
  split_ifs at hgone with hmem
  · exact ⟨hmain, hmem⟩
  · rw [Std.TreeMap.contains_eq_isSome_getElem?, hgone] at hres
    cases hres

theorem mainCapacity_heard (c : FrequencyCache V) :
    c.heard.policy.mainCapacity = c.policy.mainCapacity :=
  foldl_hear_induction (P := fun d => d.policy.mainCapacity = c.policy.mainCapacity)
    (c := c.emptied) (fun d u hd => (capacities_hear d u).2.trans hd) rfl c.waiting

theorem excess_lt (c : FrequencyCache V) : c.policy.totalCost - c.maxCost < UInt64.size :=
  Nat.lt_of_le_of_lt (Nat.sub_le _ _) (Word.add_lt _ _)

theorem probation_fits (h : c.overflowed = false) : c.policy.probation.overflowed = false :=
  (Admission.overflowed_eq_false_iff.1 h).2.2.1

/-- At most as many keys leave the main segment as candidates displace them, apart from those by
which it exceeded its capacity before. -/
theorem exists_displacing (h : c.UnitCosts) (hsized : c.policy.Sized c.maxCost)
    (hbooks : c.Books c.writes) (hfit : c.maintain.overflowed = false) (hyoung : ¬ c.Ages) :
    ∃ xs : List String, xs.Nodup ∧ (∀ x ∈ xs, c.Displaces x) ∧
      ∀ gone : List String, gone.Nodup →
        (∀ k ∈ gone, c.policy.inMain k = true ∧ c.maintain.resident[k]? = none) →
        gone.length ≤ xs.length + (c.policy.mainSum - c.policy.mainCapacity) := by
  by_cases hmain : ∃ key, c.policy.inMain key = true
  · obtain ⟨key, hkey⟩ := hmain
    obtain ⟨hheardFit, htotal⟩ := sumsFit_heard hfit
    obtain ⟨xs, hn, hxs, hle⟩ := exists_entrants (c := c.emptied) ⟨h.resident, h.tracked⟩ hsized
      hkey c.waiting hheardFit
    refine ⟨xs, hn, fun x hx => ?_, fun gone hgone hall => ?_⟩
    · obtain ⟨-, d, u, hm, henters⟩ := hxs x hx
      exact henters.displaces hm hyoung
    · have hheard := sized_heard hsized
      obtain ⟨s, hs⟩ := hheard.holds
      have hunit := (h.heard hsized).entries hs
      have hsub : gone ⊆
          (c.heard.policy.evict (c.heard.policy.totalCost - c.heard.maxCost)).1.map Entry.key :=
        fun k hk => (mem_victims hsized hbooks hfit (hall k hk).1 (hall k hk).2).2
      have hlen := (List.subperm_of_subset hgone hsub).length_le
      have hfree := Admission.length_free_le hs.probation
        (fun e he => hunit e (Segments.mem_all.2 (.inr (.inl he)))) (excess_lt c.heard) 0
      have hexcess := hheard.excess_le_main
      rw [List.length_map, hheard.evict_eq (probation_fits hheardFit)] at hlen
      replace hlen := hlen.trans hfree
      rw [mainCapacity_heard] at hexcess
      change c.heard.policy.mainSum ≤
        max c.policy.mainSum c.policy.mainCapacity + xs.length at hle
      omega
  · refine ⟨[], List.nodup_nil, nofun, fun gone _ hall => ?_⟩
    cases gone with
    | nil => exact Nat.zero_le _
    | cons k gone => exact (hmain ⟨k, (hall k List.mem_cons_self).1⟩).elim

theorem meets_append (c : FrequencyCache V) (us vs : List Use) (u : Use) :
    c.Meets (us ++ u :: vs) (us.foldl hear c) u := by
  induction us generalizing c with
  | nil => exact .here
  | cons _ us ih => exact .later (ih _)

theorem mainSum_hear_reads (hsized : c.policy.Sized bound) (reads : List (String × Nat)) :
    ((reads.map fun read => Use.read read.1 read.2).foldl hear c).policy.mainSum =
      c.policy.mainSum := by
  induction reads generalizing c with
  | nil => rfl
  | cons read reads ih =>
    refine (ih (sized_hear hsized (.read read.1 read.2))).trans ?_
    obtain ⟨s, hs⟩ := hsized.holds
    have hu := c.hears (.read read.1 read.2)
    revert hu
    generalize (c.hear (.read read.1 read.2)).policy = q
    rintro (_ | _ | _ | _)
    · rfl
    · obtain ⟨s', hs', hread⟩ := hs.recordReads _ _
      rw [hs'.mainSum_eq, hs.mainSum_eq, (hread.costSum_eq hs).1]

/-- The only victim is the last one on probation. -/
theorem lastKey_of_mem_free {l : RecencyList Unit} {es : List (Entry Unit)} (h : l.Holds es)
    (hunit : ∀ e ∈ es, e.cost = 1) {need : Nat} (hone : need ≤ 1)
    (hk : key ∈ (Admission.free l need 0).1.map Entry.key) : RecencyList.lastKey es = some key := by
  obtain ⟨kept, -, hes, -⟩ := Admission.holds_free h need 0
  have hneed : need < UInt64.size := Nat.lt_of_le_of_lt hone (by decide)
  have hlen := (Admission.length_free_le h hunit hneed 0).trans hone
  obtain ⟨e, he, rfl⟩ := List.mem_map.1 hk
  have hfreed : (Admission.free l need 0).1 = [e] := by
    cases hf : (Admission.free l need 0).1 with
    | nil =>
      rw [hf] at he
      cases he
    | cons d rest =>
      rw [hf, List.length_cons] at hlen
      have hrest : rest = [] := List.length_eq_zero_iff.1 (by omega)
      rw [hf, hrest, List.mem_singleton] at he
      rw [hrest, he]
  rw [hes, hfreed, RecencyList.lastKey_append]
  rfl

/-- A key of the main segment that is last on probation behind a candidate was next to leave before
the candidate came. -/
theorem mainVictim_of_lastKey {e : Entry Unit} (hs : c.policy.Holds s) (he : e ∈ s.window)
    (hk : c.policy.inMain key = true)
    (hlast : RecencyList.lastKey (e :: s.probation) = some key) :
    c.policy.mainVictim = some key := by
  rw [Admission.mainVictim, hs.probation.peekBack_eq]
  rw [RecencyList.lastKey_cons] at hlast
  cases hp : RecencyList.lastKey s.probation with
  | some k =>
    rw [hp] at hlast
    exact hlast
  | none =>
    rw [hp] at hlast
    obtain rfl : e.key = key := Option.some.inj hlast
    have hw : e.key ∈ s.window.map Entry.key := List.mem_map_of_mem he
    have hm := hs.inMain_iff.1 hk
    rw [Segments.main, List.map_append, List.mem_append] at hm
    rcases hm with hb | ht
    · exact (hs.not_mem_of_probation hb hw).elim
    · exact (hs.not_mem_protection (.inl hw) ht).elim

theorem readsHeard_spec (h : c.UnitCosts) (hsized : c.policy.Sized c.maxCost)
    (hk : c.policy.inMain key = true) :
    c.readsHeard.UnitCosts ∧ c.readsHeard.policy.Sized c.maxCost ∧
      c.readsHeard.policy.inMain key = true ∧ c.readsHeard.policy.mainSum = c.policy.mainSum ∧
      c.readsHeard.policy.mainCapacity = c.policy.mainCapacity := by
  obtain ⟨hunit, hs, hmain, hcap⟩ := foldl_hear_induction
    (P := fun d => d.UnitCosts ∧ d.policy.Sized c.maxCost ∧ d.policy.inMain key = true ∧
      d.policy.mainCapacity = c.policy.mainCapacity) (c := c.emptied)
    (fun d u hd => ⟨hd.1.hear hd.2.1 u, sized_hear hd.2.1 u, inMain_hear hd.2.1 u hd.2.2.1,
      (capacities_hear d u).2.trans hd.2.2.2⟩)
    ⟨⟨h.resident, h.tracked⟩, hsized, hk, rfl⟩
    (((c.shuffle c.passes).apply c.reads.drain.1).map fun read => Use.read read.1 read.2)
  exact ⟨hunit, hs, hmain, mainSum_hear_reads (c := c.emptied) hsized _, hcap⟩

theorem heard_of_one_write {w : String} (hw : c.writes = [w]) :
    c.heard = c.readsHeard.hear (.write w) ∧
      c.emptied.Meets c.waiting c.readsHeard (.write w) := by
  rw [heard, waiting, hw, List.foldl_append]
  exact ⟨rfl, meets_append _ _ [] _⟩

/-- With at most one write the key that leaves is the one that the candidate was compared with. -/
theorem displaces_of_one_write (h : c.UnitCosts) (hsized : c.policy.Sized c.maxCost)
    (hbooks : c.Books c.writes) (hfit : c.maintain.overflowed = false) (hyoung : ¬ c.Ages)
    (hfits : c.policy.mainSum ≤ c.policy.mainCapacity) (hone : c.writes.length ≤ 1)
    (hk : c.policy.inMain key = true) (hgone : c.maintain.resident[key]? = none) :
    ∃ x, c.Displaces x ∧
      c.maintain.policy.sketch.estimate key ≤ c.maintain.policy.sketch.estimate x := by
  have hheard := sized_heard hsized
  have hheardFit := (sumsFit_heard hfit).1
  have hvictim := (mem_victims hsized hbooks hfit hk hgone).2
  have hexcess := hheard.excess_le_main
  rw [hheard.evict_eq (probation_fits hheardFit)] at hvictim
  rw [mainCapacity_heard] at hexcess
  have hneed : c.heard.policy.totalCost - c.heard.maxCost ≠ 0 := by
    intro hzero
    rw [hzero, Admission.free_of_le (Nat.zero_le _)] at hvictim
    cases hvictim
  obtain ⟨hbunit, hbsized, hbmain, hbcost, hbcap⟩ := readsHeard_spec h hsized hk
  match hw : c.writes, hone with
  | [], _ =>
    have hend : c.heard = c.readsHeard := by
      rw [FrequencyCache.heard, waiting, hw, List.map_nil, List.append_nil]
      rfl
    rw [hend] at hexcess hneed
    omega
  | [w], _ =>
    obtain ⟨hend, hmeets⟩ := heard_of_one_write hw
    obtain ⟨s, hs⟩ := hbsized.holds
    rw [hend] at hheardFit
    obtain ⟨s', hs', huse⟩ := unitUse_hear hbunit hbsized hs hheardFit
    rw [← hend] at hs' huse
    have hcost := hs'.mainSum_eq
    rw [hs.mainSum_eq] at hbcost
    cases huse with
    | settled hsame _ => omega
    | @entered e front he hecost _ haccepted =>
      rw [Admission.costSum_entered front hecost] at hcost
      have hunit := (h.heard hsized).entries hs'
      have hsmall : c.heard.policy.totalCost - c.heard.maxCost ≤ 1 := by omega
      have hlast := lastKey_of_mem_free hs'.probation
        (fun d hd => hunit d (Segments.mem_all.2 (.inr (.inl hd)))) hsmall hvictim
      have hnext := mainVictim_of_lastKey hs he hbmain hlast
      have hle := haccepted.resolve_left (by omega) key hnext
      have henters : c.readsHeard.Enters (.write w) e.key := by
        refine ⟨hs.window.contains_iff.2 (List.mem_map_of_mem he), ?_, ?_, key, hnext, ?_⟩
        · rw [← hend]
          exact hs'.probation.contains_iff.2 (by simp)
        · rw [hs.mainSum_eq]
          omega
        · rwa [← hend]
      refine ⟨e.key, henters.displaces hmeets hyoung, ?_⟩
      rwa [sketch_maintain]

/-! ## Runs of sets that cost one -/

/-- While the bound is not enforced, the main segment exceeds its capacity only next to a full
window. -/
theorem mainSum_le_or_full_hear (h : c.UnitCosts) (hsized : c.policy.Sized bound)
    (hfull : c.policy.mainSum ≤ c.policy.mainCapacity ∨
      c.policy.window.totalCost = c.policy.windowCapacity)
    (hfit : (c.hear u).overflowed = false) :
    (c.hear u).policy.mainSum ≤ (c.hear u).policy.mainCapacity ∨
      (c.hear u).policy.window.totalCost = (c.hear u).policy.windowCapacity := by
  obtain ⟨s, hs⟩ := hsized.holds
  obtain ⟨s', hs', huse⟩ := unitUse_hear h hsized hs hfit
  have hle := (sized_hear hsized u).window_le
  obtain ⟨hwcap, hmcap⟩ := c.capacities_hear u
  have hcost := hs.mainSum_eq
  have hcost' := hs'.mainSum_eq
  have hwindow := (hs.totals (overflowed_of_hear hfit)).1
  have hwindow' := (hs'.totals hfit).1
  cases huse with
  | settled hmain hw => omega
  | entered _ _ hw _ =>
    dsimp only at hwindow'
    omega

theorem mainSum_le_or_full_heard (h : c.UnitCosts) (hsized : c.policy.Sized bound)
    (hfull : c.policy.mainSum ≤ c.policy.mainCapacity ∨
      c.policy.window.totalCost = c.policy.windowCapacity)
    (hfit : (us.foldl hear c).overflowed = false) :
    (us.foldl hear c).policy.mainSum ≤ (us.foldl hear c).policy.mainCapacity ∨
      (us.foldl hear c).policy.window.totalCost = (us.foldl hear c).policy.windowCapacity := by
  induction us generalizing c with
  | nil => exact hfull
  | cons u us ih =>
    have hheard := overflowed_of_foldl_hear
      (show (us.foldl hear (c.hear u)).overflowed = false from hfit)
    have hstep := mainSum_le_or_full_hear h hsized hfull hheard
    exact ih (h.hear hsized u) (sized_hear hsized u) hstep hfit

theorem mainSum_maintain_le (h : c.UnitCosts) (hsized : c.policy.Sized c.maxCost)
    (hfits : c.policy.mainSum ≤ c.policy.mainCapacity) (hfit : c.maintain.overflowed = false) :
    c.maintain.policy.mainSum ≤ c.maintain.policy.mainCapacity := by
  have hheard := sized_heard hsized
  have hsums := sumsFit_heard hfit
  have hfull : c.heard.policy.mainSum ≤ c.heard.policy.mainCapacity ∨
      c.heard.policy.window.totalCost = c.heard.policy.windowCapacity :=
    mainSum_le_or_full_heard (c := c.emptied) ⟨h.resident, h.tracked⟩ hsized (.inl hfits) hsums.1
  obtain ⟨s, hs⟩ := hheard.holds
  have ht : c.heard.policy.Tracks s.all := ⟨s, hs, .refl _⟩
  have hlt := ht.costSum_lt hsums
  rw [Admission.costSum_all] at hlt
  obtain ⟨kept, hkept, hes, hcuts⟩ :=
    Admission.holds_free hs.probation (c.heard.policy.totalCost - c.heard.maxCost) 0
  have hend : c.maintain.policy.Holds ⟨s.window, kept, s.protection⟩ := by
    have hnodup : ((Segments.mk s.window kept s.protection).all.map Entry.key).Nodup := by
      have hsub : (Segments.mk s.window kept s.protection).all.Sublist s.all := by
        rw [Segments.all, Segments.all, hes]
        exact ((List.sublist_append_left _ _).append_left _).append_right _
      exact hs.nodup.sublist (hsub.map _)
    rw [maintain_eq, policy_enforceBound, summed_heard hfit,
      hheard.evict_eq (probation_fits hsums.1)]
    exact ⟨hs.window, hkept, hs.protection, hnodup⟩
  have hcapacity : c.maintain.policy.mainCapacity = c.heard.policy.mainCapacity := by
    obtain ⟨probation, heq⟩ := policy_maintain hsized hfit
    rw [heq]
  have hshared := hheard.shared
  have hexcess := hheard.excess_le
  have hwindow := hheard.window_le
  obtain ⟨hw, hb, hp⟩ := hs.totals hsums.1
  have htotal := ht.totalCost hsums
  rw [Admission.costSum_all] at htotal
  rw [hs.mainSum_eq, Admission.costSum_main] at hfull
  rw [hend.mainSum_eq, Admission.costSum_main, hcapacity]
  have hfreed := congrArg costSum hes
  rw [costSum_append, costSum_reverse] at hfreed
  rcases (hcuts (by omega)).enough with henough | hnil
  · rw [Nat.sub_zero] at henough
    dsimp only
    omega
  · rw [List.reverse_eq_nil_iff.1 hnil] at hfreed ⊢
    rw [costSum_nil] at hfreed ⊢
    dsimp only
    omega

theorem mainSum_perform_le (hsized : c.policy.Sized c.maxCost)
    (hfits : c.policy.mainSum ≤ c.policy.mainCapacity) (r : LocalRequest V) :
    (c.perform r).policy.mainSum ≤ (c.perform r).policy.mainCapacity := by
  cases r with
  | get key =>
    obtain ⟨reads, hits, misses, heq⟩ := c.get_frame key
    rw [FrequencyCache.perform, heq]
    exact hfits
  | set key value cost =>
    unfold FrequencyCache.perform
    dsimp only
    split_ifs <;> exact hfits
  | delete key =>
    obtain ⟨s, hs⟩ := hsized.holds
    have hs' := hs.remove key
    obtain ⟨_, _, _, heq⟩ := c.policy.remove_frame key
    have hcapacity : (c.policy.remove key).2.mainCapacity = c.policy.mainCapacity := by rw [heq]
    have hb := RecencyList.costSum_le_of_sublist
      (List.filter_sublist (l := s.probation) (p := fun e => e.key ≠ key))
    have ht := RecencyList.costSum_le_of_sublist
      (List.filter_sublist (l := s.protection) (p := fun e => e.key ≠ key))
    rw [hs.mainSum_eq, Admission.costSum_main] at hfits
    rw [FrequencyCache.perform, delete, hs'.mainSum_eq, Admission.costSum_main, hcapacity]
    exact (Nat.add_le_add hb ht).trans hfits
  | clear | close =>
    obtain ⟨s, hs, hnil⟩ := c.policy.tracks_clear
    have hsum := RecencyList.costSum_perm hnil
    rw [Admission.costSum_all, costSum_nil] at hsum
    change c.policy.clear.mainSum ≤ c.policy.mainCapacity
    rw [hs.mainSum_eq, Admission.costSum_main]
    omega
  | maintain => exact hfits

/-- When all sets cost one, the main segment is within its capacity between two requests. -/
theorem unitCosts_run {chance : Chance} {config : LocalConfig} (h : new chance config = .ok c)
    {rs : List (LocalRequest V)} (hrs : ∀ key value cost, .set key value cost ∈ rs → cost = 1)
    (hfit : (c.run rs).overflowed = false) :
    (c.run rs).UnitCosts ∧ (c.run rs).policy.mainSum ≤ (c.run rs).policy.mainCapacity := by
  induction rs using List.reverseRecOn with
  | nil =>
    obtain ⟨-, -, readCapacity, -, rfl⟩ := exists_eq_empty_of_new h
    exact ⟨only_new h, Nat.zero_le _⟩
  | append_singleton rs r ih =>
    rw [run_append_singleton] at hfit
    obtain ⟨hunit, hfits⟩ :=
      ih (fun key value cost hm => hrs key value cost (List.mem_append_left _ hm))
        (overflowed_of_serve hfit)
    have hsized := sized_run h rs
    have hperformed : ((c.run rs).perform r).UnitCosts :=
      hunit.perform hsized fun key value cost heq => hrs key value cost (by simp [heq])
    have hwithin := mainSum_perform_le hsized hfits r
    rw [run_append_singleton]
    rw [serve_eq] at hfit ⊢
    split_ifs at hfit ⊢
    · have hs := sized_perform hsized r
      exact ⟨hperformed.maintain hs, mainSum_maintain_le hperformed hs hwithin hfit⟩
    · exact ⟨hperformed, hwithin⟩

/-! ## Main results -/

theorem Balanced.books_perform {config : LocalConfig} (h : c.Balanced config)
    (r : LocalRequest V) : (c.perform r).Books (c.perform r).writes := by
  cases r with
  | get key => exact (h.get key).books
  | set key value cost =>
    obtain ⟨es, ht, ha⟩ := h.books
    unfold FrequencyCache.perform
    dsimp only
    split_ifs
    · exact ⟨es, ht, ha⟩
    · exact ⟨es, ht, ha.insert key ⟨value, cost⟩⟩
  | delete key => exact (h.delete key).books
  | clear => exact h.clear.books
  | close => exact (h.serve .close).books
  | maintain => exact h.books

/-- In a pass over entries that cost one, and whose sums fit into words, at most as many keys leave
the main segment as different candidates enter it while it is full, each of them at least as
frequent at the end of the pass as the key that was next to leave when it came; what the main
segment exceeded its capacity by before leaves as well, but that is nothing when all sets cost one.
With at most one write the key that leaves is the one that the candidate was compared with. -/
theorem displaced_by_candidates {chance : Chance} {config : LocalConfig}
    (h : new chance config = .ok c) (rs : List (LocalRequest V)) (r : LocalRequest V)
    (hpass : (c.run rs).MakesPass r) (hfit : ((c.run rs).serve r).overflowed = false) :
    let d := (c.run rs).perform r
    (c.run rs).serve r = d.maintain ∧
    ((∀ key value cost, .set key value cost ∈ rs ++ [r] → cost = 1) →
      d.UnitCosts ∧ d.policy.mainSum ≤ d.policy.mainCapacity) ∧
    (d.UnitCosts → ¬ d.Ages →
      (∃ xs : List String, xs.Nodup ∧ (∀ x ∈ xs, d.Displaces x) ∧
        ∀ gone : List String, gone.Nodup →
          (∀ k ∈ gone, d.policy.inMain k = true ∧ d.maintain.resident[k]? = none) →
          gone.length ≤ xs.length + (d.policy.mainSum - d.policy.mainCapacity)) ∧
      (d.policy.mainSum ≤ d.policy.mainCapacity → ∀ key, d.policy.inMain key = true →
        d.maintain.resident[key]? = none →
        (∃ x, d.Displaces x) ∧
        (d.writes.length ≤ 1 → ∃ x, d.Displaces x ∧
          d.maintain.policy.sketch.estimate key ≤ d.maintain.policy.sketch.estimate x))) := by
  intro d
  have hsized : d.policy.Sized d.maxCost := sized_perform (sized_run h rs) r
  have hbooks : d.Books d.writes := (balanced_run h rs).books_perform r
  have hserve : (c.run rs).serve r = d.maintain := by rw [serve_eq, if_pos hpass]
  have hbefore := overflowed_of_serve hfit
  rw [hserve] at hfit
  refine ⟨hserve, fun hsets => ?_, fun hunit hyoung => ?_⟩
  · obtain ⟨hunit, hfits⟩ := unitCosts_run h
      (fun key value cost hm => hsets key value cost (List.mem_append_left _ hm)) hbefore
    exact ⟨hunit.perform (sized_run h rs) fun key value cost heq =>
      hsets key value cost (by simp [heq]), mainSum_perform_le (sized_run h rs) hfits r⟩
  · obtain ⟨xs, hn, hxs, hcount⟩ := exists_displacing hunit hsized hbooks hfit hyoung
    refine ⟨⟨xs, hn, hxs, hcount⟩, fun hfits key hk hgone => ⟨?_, fun hone => ?_⟩⟩
    · have hlen := hcount [key] (List.nodup_singleton key)
        (List.forall_mem_singleton.2 ⟨hk, hgone⟩)
      rw [List.length_singleton, Nat.sub_eq_zero_of_le hfits] at hlen
      obtain ⟨x, hx⟩ := List.exists_mem_of_length_pos (Nat.lt_of_lt_of_le Nat.zero_lt_one hlen)
      exact ⟨x, hxs x hx⟩
    · exact displaces_of_one_write hunit hsized hbooks hfit hyoung hfits hone hk hgone

/-- A hot key in a full main segment, next to be displaced after a cold one. -/
def hotAndCold : List (LocalRequest Nat) :=
  [.set "v" 1 1, .maintain, .set "u" 2 1, .maintain] ++ List.replicate 3 (.get "u") ++
    [.maintain, .set "a" 3 1, .maintain]

/-- One write displaces the cold key. -/
theorem cold_key_displaced_by_candidate :
    ∃ c : FrequencyCache Nat, new charChance threeEntries = .ok c ∧
      let d := (c.run (hotAndCold ++ [.set "x" 4 1])).perform .maintain
      d.policy.inMain "v" = true ∧ d.maintain.resident["v"]? = none ∧
      ∃ x, d.Displaces x ∧
        d.maintain.policy.sketch.estimate "v" ≤ d.maintain.policy.sketch.estimate x := by
  refine ⟨_, rfl, ?_⟩
  intro d
  obtain ⟨-, hsets, hpass⟩ := displaced_by_candidates
    (show new (V := Nat) charChance threeEntries = .ok _ from rfl)
    (hotAndCold ++ [.set "x" 4 1]) .maintain trivial (by decide +kernel)
  obtain ⟨hunit, hfits⟩ := hsets (by simp [hotAndCold]; omega)
  have hyoung : ¬ d.Ages := by
    have hwaiting : d.waiting = [.write "x"] := by decide +kernel
    rintro ⟨b, w, hm, -, hold⟩
    rw [hwaiting] at hm
    cases hm with
    | here => exact absurd hold (by decide +kernel)
    | later hm => cases hm
  have hk : d.policy.inMain "v" = true := by decide +kernel
  have hgone : d.maintain.resident["v"]? = none := by decide +kernel
  exact ⟨hk, hgone, ((hpass hunit hyoung).2 hfits "v" hk hgone).2 (by decide +kernel)⟩

/-- Two cold writes in one pass displace the cold key and the hot one: both candidates were compared
with the cold key. -/
theorem cold_batch_displaces_hot_key :
    ∃ c : FrequencyCache Nat, new charChance threeEntries = .ok c ∧
      let d := c.run (hotAndCold ++ [.set "x" 4 1, .set "y" 5 1])
      d.UnitCosts ∧ ¬ d.Ages ∧ d.policy.inMain "u" = true ∧ d.maintain.resident["u"]? = none ∧
      ∀ x b w, d.emptied.Meets d.waiting b w → b.policy.window.contains x = true →
        (b.hear w).policy.inMain x = true →
        d.maintain.policy.sketch.estimate x < d.maintain.policy.sketch.estimate "u" := by
  refine ⟨_, rfl, ?_⟩
  intro d
  have hwaiting : d.waiting = [.write "x", .write "y"] := by decide +kernel
  have hunit : d.UnitCosts := by
    refine (unitCosts_run (show new (V := Nat) charChance threeEntries = .ok _ from rfl) ?_
      (by decide +kernel)).1
    simp [hotAndCold]
    omega
  refine ⟨hunit, ?_, by decide +kernel, by decide +kernel, fun x b w hm hw _ => ?_⟩
  · rintro ⟨b, w, hm, -, hold⟩
    rw [hwaiting] at hm
    obtain _ | _ | ⟨⟨⟩⟩ := hm
    · exact absurd hold (by decide +kernel)
    · exact absurd hold (by decide +kernel)
  · rw [hwaiting] at hm
    have hkey : x ∈ b.policy.window.chain.lookup.keys := Std.TreeMap.mem_keys.2 hw
    obtain _ | _ | ⟨⟨⟩⟩ := hm
    · have hkeys : d.emptied.policy.window.chain.lookup.keys = ["a"] := by decide +kernel
      rw [hkeys, List.mem_singleton] at hkey
      rw [hkey]
      decide +kernel
    · have hkeys : (d.emptied.hear (.write "x")).policy.window.chain.lookup.keys = ["x"] := by
        decide +kernel
      rw [hkeys, List.mem_singleton] at hkey
      rw [hkey]
      decide +kernel

end FrequencyCache

end PodCache
