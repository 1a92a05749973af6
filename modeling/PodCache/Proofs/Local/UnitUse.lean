import PodCache.Proofs.Local.Sums

/-!
# Policies of entries that cost one

When every entry costs one, a use moves at most one entry into the main segment, and only from a
full window (`UnitUse`).  Every key that is offered is such a use (`Holds.offer_unit`), and eviction
frees no more entries than it needs (`length_free_le`).
-/

namespace PodCache

open RecencyList (without costSum costSum_nil costSum_cons costSum_append)

theorem Segments.mem_all {s : Segments} {e : Entry Unit} :
    e ∈ s.all ↔ e ∈ s.window ∨ e ∈ s.probation ∨ e ∈ s.protection := by
  rw [Segments.all, List.mem_append, List.mem_append, or_assoc]

namespace Admission

variable {p q : Admission} {s s' : Segments} {key : String} {bound : Nat}

/-! ## Uses of entries that cost one -/

theorem costSum_without {es : List (Entry Unit)} {e : Entry Unit}
    (hn : (es.map Entry.key).Nodup) (he : e ∈ es) :
    costSum es = e.cost + costSum (without es e.key) := by
  rw [← RecencyList.costSum_perm (RecencyList.perm_cons_without hn he), costSum_cons]

theorem costSum_main (s : Segments) :
    costSum s.main = costSum s.probation + costSum s.protection :=
  costSum_append _ _

theorem costSum_of_split {e : Entry Unit} {es kept demoted : List (Entry Unit)}
    (h : e :: es = kept ++ demoted) : costSum kept + costSum demoted = e.cost + costSum es := by
  have hsum := congrArg costSum h
  rw [costSum_cons, costSum_append] at hsum
  exact hsum.symm

/-- What a use does to the segments of a policy `p` when all entries cost one: the main segment
keeps its size and the window does not shrink, or the window is full and its oldest entry goes on
probation.  Then there was room in the main segment, or by the sketch of the policy `q` after the
use the entry is as frequent as the key that is next to leave. -/
inductive UnitUse (p q : Admission) (s : Segments) : Segments → Prop
  | settled {s' : Segments} (hmain : costSum s'.main = costSum s.main)
    (hw : costSum s.window ≤ costSum s'.window) : UnitUse p q s s'
  | entered {e : Entry Unit} {front : List (Entry Unit)} (he : e ∈ s.window) (hcost : e.cost = 1)
    (hw : costSum front = p.windowCapacity)
    (haccepted : costSum s.main + 1 ≤ p.mainCapacity ∨ ∀ victim, p.mainVictim = some victim →
      q.sketch.estimate victim ≤ q.sketch.estimate e.key) :
    UnitUse p q s ⟨front, e :: s.probation, s.protection⟩

theorem costSum_entered {e : Entry Unit} (front : List (Entry Unit)) (he : e.cost = 1) :
    costSum (Segments.mk front (e :: s.probation) s.protection).main = costSum s.main + 1 := by
  simp only [costSum_main, costSum_cons, he]
  omega

/-- Reads move costs neither into the main segment nor out of it. -/
theorem Read.costSum_eq (h : p.Read key s s') (hs : p.Holds s) :
    costSum s'.main = costSum s.main ∧ costSum s'.window = costSum s.window := by
  cases h with
  | inWindow he hk =>
    subst hk
    have hperm := RecencyList.perm_cons_without hs.window.nodup he
    exact ⟨rfl, RecencyList.costSum_perm hperm⟩
  | isProtected he hk =>
    subst hk
    have hperm := RecencyList.perm_cons_without hs.protection.nodup he
    exact ⟨RecencyList.costSum_perm (hperm.append_left _), rfl⟩
  | promoted he hk hsplit =>
    subst hk
    have hsum := costSum_of_split hsplit
    have hwithout := costSum_without hs.probation.nodup he
    refine ⟨?_, rfl⟩
    simp only [costSum_main, costSum_append]
    omega
  | untracked _ => exact ⟨rfl, rfl⟩

theorem Drains.eq_of_le {dropped : List String} (hd : p.Drains dropped q)
    (h : p.window.totalCost ≤ p.windowCapacity) : p = q := by
  cases hd with
  | fits _ => rfl
  | accepts hover _ _ _ | rejects hover _ _ _ => exact absurd h (Nat.not_le.2 hover)

theorem drainWindow_of_le (h : p.window.totalCost ≤ p.windowCapacity) :
    p.drainWindow = ([], p) := by
  unfold drainWindow
  rw [if_neg (Nat.not_lt.2 h)]

theorem Holds.of_accepts (hs : p.Holds s) (hp : p.overflowed = false) {e : Entry Unit}
    (hfit : p.mainOverflows e.cost = false) (h : p.accepts e = true) :
    costSum s.main + e.cost ≤ p.mainCapacity ∨ ∀ victim, p.mainVictim = some victim →
      p.sketch.estimate victim ≤ p.sketch.estimate e.key := by
  unfold accepts at h
  split_ifs at h with hroom
  · obtain ⟨-, hb, ht⟩ := hs.totals hp
    rw [mainOverflows, Bool.or_eq_false_iff, Word.overflows_eq_false_iff,
      Word.overflows_eq_false_iff] at hfit
    rw [Word.add_eq hfit.2, mainCost, Word.add_eq hfit.1, hb, ht, ← costSum_main] at hroom
    exact .inl hroom
  · refine .inr fun victim hv => ?_
    rw [hv] at h
    exact of_decide_eq_true h

/-- What is noted when the oldest key of the window comes to compete. -/
theorem mainOverflows_of_competing {e : Entry Unit} {rest : RecencyList Unit}
    (h : (p.competing rest e.cost).overflowed = false) : p.mainOverflows e.cost = false := by
  rw [competing, overflowed_noteSum, Bool.or_eq_false_iff] at h
  exact h.2

/-- A window that is one too large loses its oldest entry, to probation or for good. -/
theorem Holds.drainWindow_one (h : p.Holds s) (hunit : ∀ e ∈ s.window, e.cost = 1)
    (hover : costSum s.window = p.windowCapacity + 1)
    (hfit : p.drainWindow.2.overflowed = false) :
    ∃ front e, s.window = front ++ [e] ∧ costSum front = p.windowCapacity ∧
      ((costSum s.main + 1 ≤ p.mainCapacity ∨ ∀ victim, p.mainVictim = some victim →
          p.sketch.estimate victim ≤ p.sketch.estimate e.key) ∧
        p.drainWindow.2.Holds ⟨front, e :: s.probation, s.protection⟩ ∨
        p.drainWindow.2.Holds ⟨front, s.probation, s.protection⟩) := by
  have hp := overflowed_of_drainWindow hfit
  have htotal := (h.totals hp).1
  -- one step is enough, as the rest fits
  have hone {e : Entry Unit} {front : List (Entry Unit)} (hfront : s.window = front ++ [e]) :
      e.cost = 1 ∧ costSum front = p.windowCapacity := by
    have he : e.cost = 1 := hunit e (by simp [hfront])
    rw [hfront, costSum_append, costSum_cons, costSum_nil, he] at hover
    exact ⟨he, by omega⟩
  have hd := h.drains
  generalize p.drainWindow.1 = dropped at hd
  generalize p.drainWindow.2 = q at hd hfit
  cases hd with
  | fits hfits => omega
  | @accepts _ _ _ e rest _ hpop ha hrest =>
    obtain ⟨front, hfront, hs⟩ := h.acceptOldest hpop
    obtain ⟨he, hcost⟩ := hone hfront
    have heq := hrest.eq_of_le (hs.window.totalCost_le.trans hcost.le)
    subst heq
    obtain ⟨hsum, hw, hb, ht⟩ := overflowed_eq_false_iff.1 hfit
    have hcompete : (p.competing rest e.cost).overflowed = false :=
      overflowed_eq_false_iff.2 ⟨hsum, hw, RecencyList.overflowed_of_pushFront hb, ht⟩
    have haccepted := h.of_accepts hp (mainOverflows_of_competing hcompete) ha
    rw [he] at haccepted
    exact ⟨front, e, hfront, hcost, .inl ⟨haccepted, hs⟩⟩
  | @rejects _ _ _ e rest _ hpop _ hrest =>
    obtain ⟨front, hfront, hs⟩ := h.rejectOldest hpop
    have hcost := (hone hfront).2
    have heq := hrest.eq_of_le (hs.window.totalCost_le.trans hcost.le)
    subst heq
    exact ⟨front, e, hfront, hcost, .inr hs⟩

theorem sketch_offer (p : Admission) (key : String) :
    (p.offer key 1).2.sketch = p.sketch.increment key := by
  obtain ⟨_, _, _, _, heq⟩ := p.offer_frame key 1
  rw [heq]

/-- A new key comes while the window is full, so that the oldest of the others leaves it. -/
theorem Holds.offer_unit_full (h : p.Holds s) (hsized : p.Sized bound)
    (hunit : ∀ e ∈ s.window, e.cost = 1) (hb : key ∉ s.probation.map Entry.key)
    (ht : key ∉ s.protection.map Entry.key) (hw : key ∉ s.window.map Entry.key)
    (hfull : costSum s.window = p.windowCapacity) (hfit : (p.offer key 1).2.overflowed = false) :
    ∃ s', (p.offer key 1).2.Holds s' ∧ UnitUse p (p.offer key 1).2 s s' := by
  have hpushed := h.pushed 1 hb ht
  rw [RecencyList.without_of_not_mem hw] at hpushed
  have hover : costSum ((⟨key, (), 1⟩ : Entry Unit) :: s.window) = p.windowCapacity + 1 := by
    rw [costSum_cons, hfull, Nat.add_comm]
  rw [h.offer_eq_drainWindow 1 hb ht] at hfit
  obtain ⟨front, e, hfront, hfits, hcases⟩ :=
    hpushed.drainWindow_one (List.forall_mem_cons.2 ⟨rfl, hunit⟩) hover hfit
  rw [← h.offer_eq_drainWindow 1 hb ht] at hcases
  -- the window was full, so that the oldest entry is not the one that was offered
  have he : e ∈ s.window := by
    have hroom := hsized.room
    have hne : s.window ≠ [] := by
      intro hnil
      rw [hnil, costSum_nil] at hfull
      omega
    have hlast := congrArg List.getLast? hfront
    rw [List.getLast?_append, List.getLast?_singleton, Option.some_or,
      List.getLast?_cons_of_ne_nil hne] at hlast
    exact List.mem_of_getLast? hlast
  rcases hcases with ⟨haccepts, hs'⟩ | hs'
  · refine ⟨_, hs', .entered he (hunit e he) hfits ?_⟩
    rw [sketch_offer]
    exact haccepts
  · exact ⟨_, hs', .settled rfl (hfull.trans hfits.symm).le⟩

/-- Offering a key outside the main segment. -/
theorem Holds.offer_unit_windowed (h : p.Holds s) (hsized : p.Sized bound)
    (hunit : ∀ e ∈ s.all, e.cost = 1) (hb : key ∉ s.probation.map Entry.key)
    (ht : key ∉ s.protection.map Entry.key) (hfit : (p.offer key 1).2.overflowed = false) :
    ∃ s', (p.offer key 1).2.Holds s' ∧ UnitUse p (p.offer key 1).2 s s' := by
  have hpushed := h.pushed 1 hb ht
  have hcost : (p.pushed key 1).window.totalCost ≤ 1 + costSum (without s.window key) :=
    hpushed.window.totalCost_le
  have hle := hsized.window_le
  rw [(h.totals (overflowed_of_offer hfit)).1] at hle
  by_cases hw : key ∈ s.window.map Entry.key
  · -- a key of the window goes to its front
    obtain ⟨e, he, rfl⟩ := List.mem_map.1 hw
    have hsum := costSum_without h.window.nodup he
    rw [hunit e (Segments.mem_all.2 (.inl he))] at hsum
    rw [h.offer_eq_drainWindow 1 hb ht,
      drainWindow_of_le (hcost.trans (hsum.symm.trans_le hle))]
    exact ⟨_, hpushed, .settled rfl hsum.le⟩
  · rcases Nat.lt_or_eq_of_le hle with hroom | hfull
    · rw [RecencyList.without_of_not_mem hw] at hcost hpushed
      have hfits : 1 + costSum s.window ≤ p.windowCapacity := by omega
      rw [h.offer_eq_drainWindow 1 hb ht, drainWindow_of_le (hcost.trans hfits)]
      exact ⟨_, hpushed, .settled rfl (Nat.le_add_left _ _)⟩
    · exact h.offer_unit_full hsized (fun e he => hunit e (Segments.mem_all.2 (.inl he))) hb ht hw
        hfull hfit

theorem Holds.offer_unit (h : p.Holds s) (hsized : p.Sized bound)
    (hunit : ∀ e ∈ s.all, e.cost = 1) (hfit : (p.offer key 1).2.overflowed = false) :
    ∃ s', (p.offer key 1).2.Holds s' ∧ UnitUse p (p.offer key 1).2 s s' := by
  obtain ⟨s', dropped, hs', -, hoffer⟩ := h.offer key 1
  cases hoffer with
  | isProtected hk hsplit =>
    obtain ⟨e, he, rfl⟩ := List.mem_map.1 hk
    have hone : e.cost = 1 := hunit e (Segments.mem_all.2 (.inr (.inr he)))
    have hsum := costSum_of_split hsplit
    have hwithout := costSum_without h.protection.nodup he
    refine ⟨_, hs', .settled ?_ (Nat.le_refl _)⟩
    simp only [costSum_main, costSum_append] at hsum ⊢
    omega
  | promoted hk hsplit =>
    obtain ⟨e, he, rfl⟩ := List.mem_map.1 hk
    have hone : e.cost = 1 := hunit e (Segments.mem_all.2 (.inr (.inl he)))
    have hsum := costSum_of_split hsplit
    have hwithout := costSum_without h.probation.nodup he
    refine ⟨_, hs', .settled ?_ (Nat.le_refl _)⟩
    simp only [costSum_main, costSum_append] at hsum ⊢
    omega
  | windowed hb ht _ => exact h.offer_unit_windowed hsized hunit hb ht hfit

/-! ## Evicting entries that cost one -/

theorem length_free_le {l : RecencyList Unit} {es : List (Entry Unit)} (h : l.Holds es)
    (hunit : ∀ e ∈ es, e.cost = 1) {need : Nat} (hneed : need < UInt64.size) (freed : Nat) :
    (free l need freed).1.length ≤ need - freed := by
  fun_induction free l need freed generalizing es with
  | case1 l freed _ hp => exact Nat.zero_le _
  | case2 l freed hless e rest hp victims left heq ih =>
    obtain ⟨front, rfl, hrest⟩ := h.of_popBack hp
    have he : e.cost = 1 := hunit e (by simp)
    have hadd : Word.add freed 1 = freed + 1 := Word.add_eq (by omega)
    have hlen := ih hrest fun d hd => hunit d (by simp [hd])
    rw [heq, he, hadd] at hlen
    simp only [List.length_cons] at hlen ⊢
    omega
  | case3 l freed => exact Nat.zero_le _

end Admission

end PodCache
