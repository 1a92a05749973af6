import PodCache.Proofs.Local.Admission
import PodCache.Proofs.Local.Sizing

/-!
# Segments within their capacities

After every request the window and the protected part of a policy are within their capacities
(`Admission.Fits`), whatever the costs.  The capacities themselves fit together as soon as there is
a bound to share (`Admission.Sized p bound`).  Only probation may exceed the main segment's, and
only until the bound is enforced: the capacities of window and protection together are at most the
bound, so that what exceeds it can be freed from probation alone (`Sized.excess_le`,
`Sized.evict_eq`).  A key of the main segment stays there when another key is read or offered, and
only the use of a key of the main segment takes protection from one (`Read.of_protection`,
`Offered.of_protection`).
-/

namespace PodCache

open RecencyList (without)

/-- The entries of the main segment. -/
def Segments.main (s : Segments) : List (Entry Unit) := s.probation ++ s.protection

namespace Admission

/-- Whether a key is in the main segment. -/
def inMain (p : Admission) (key : String) : Bool :=
  p.probation.contains key || p.protection.contains key

variable {p : Admission} {s s' : Segments} {dropped : List (Entry Unit)} {key k : String}
  {cost bound : Nat}

/-! ## What requests leave alone -/

theorem demoteOverflow_frame (p : Admission) :
    ∃ probation protection, p.demoteOverflow = { p with probation, protection } := by
  fun_induction Admission.demoteOverflow p with
  | case1 p => exact ⟨_, _, rfl⟩
  | case2 p _ e rest _ ih =>
    obtain ⟨probation, protection, heq⟩ := ih
    exact ⟨probation, protection, heq⟩
  | case3 p => exact ⟨_, _, rfl⟩

theorem drainWindow_frame (p : Admission) :
    ∃ window probation sumOverflowed,
      p.drainWindow.2 = { p with window, probation, sumOverflowed } := by
  fun_induction Admission.drainWindow p with
  | case1 p => exact ⟨_, _, _, rfl⟩
  | case2 p _ e rest _ _ ih =>
    obtain ⟨window, probation, sumOverflowed, heq⟩ := ih
    exact ⟨window, probation, sumOverflowed, heq⟩
  | case3 p _ e rest _ _ rejected q heq ih =>
    obtain ⟨window, probation, sumOverflowed, hq⟩ := ih
    rw [heq] at hq
    exact ⟨window, probation, sumOverflowed, hq⟩
  | case4 p => exact ⟨_, _, _, rfl⟩

/-- Reads move keys between segments and are counted. -/
theorem recordReads_frame (p : Admission) (key : String) (count : Nat) :
    ∃ window probation protection, p.recordReads key count =
      { p with
        window, probation, protection
        sketch := p.sketch.incrementMany key (min count maxReads) } := by
  unfold recordReads
  dsimp only
  split_ifs
  · exact ⟨_, _, _, rfl⟩
  · exact ⟨_, _, _, rfl⟩
  · split
    · obtain ⟨probation, protection, heq⟩ := demoteOverflow_frame _
      exact ⟨_, probation, protection, heq⟩
    · exact ⟨_, _, _, rfl⟩

/-- An offer moves keys between segments and is counted. -/
theorem offer_frame (p : Admission) (key : String) (cost : Nat) :
    ∃ window probation protection sumOverflowed, (p.offer key cost).2 =
      { p with
        window, probation, protection, sumOverflowed
        sketch := p.sketch.increment key } := by
  unfold offer
  dsimp only
  split_ifs
  · obtain ⟨probation, protection, heq⟩ := demoteOverflow_frame _
    exact ⟨_, probation, protection, _, heq⟩
  · split
    · obtain ⟨probation, protection, heq⟩ := demoteOverflow_frame _
      exact ⟨_, probation, protection, _, heq⟩
    · obtain ⟨window, probation, sumOverflowed, heq⟩ := drainWindow_frame _
      exact ⟨window, probation, _, sumOverflowed, heq⟩

theorem remove_frame (p : Admission) (key : String) :
    ∃ window probation protection,
      (p.remove key).2 = { p with window, probation, protection } := by
  unfold remove
  split
  · exact ⟨_, _, _, rfl⟩
  · split
    · exact ⟨_, _, _, rfl⟩
    · split <;> exact ⟨_, _, _, rfl⟩

/-- An eviction takes entries out of the segments. -/
theorem evict_frame (p : Admission) (need : Nat) :
    ∃ window probation protection sumOverflowed,
      (p.evict need).2 = { p with window, probation, protection, sumOverflowed } :=
  ⟨_, _, _, _, rfl⟩

/-! ## Keys of the main segment -/

theorem Holds.inMain_iff (h : p.Holds s) : p.inMain key = true ↔ key ∈ s.main.map Entry.key := by
  rw [inMain, Bool.or_eq_true, h.probation.contains_iff, h.protection.contains_iff, Segments.main,
    List.map_append, List.mem_append]

/-- Offering a key that is not in the main segment leaves protection alone. -/
theorem Holds.protection_offer (h : p.Holds s) (hk : p.inMain key = false) (cost : Nat) :
    (p.offer key cost).2.protection = p.protection := by
  rw [Bool.eq_false_iff, ne_eq, h.inMain_iff, Segments.main, List.map_append, List.mem_append,
    not_or] at hk
  rw [h.offer_eq_drainWindow cost hk.1 hk.2]
  obtain ⟨window, probation, sumOverflowed, heq⟩ := drainWindow_frame (p.pushed key cost)
  rw [heq]
  rfl

theorem mem_cons_without {e : Entry Unit} {es : List (Entry Unit)} (hk : e.key = key)
    (hm : k ∈ es.map Entry.key) : k ∈ (e :: without es key).map Entry.key := by
  obtain ⟨d, hd, rfl⟩ := List.mem_map.1 hm
  by_cases hdk : d.key = key
  · simp [hdk, hk]
  · have hw : d ∈ without es key := RecencyList.mem_without.2 ⟨hd, hdk⟩
    simp only [List.map_cons, List.mem_cons]
    exact .inr (List.mem_map_of_mem hw)

theorem mem_of_split {e : Entry Unit} {es kept demoted : List (Entry Unit)}
    (hsplit : e :: es = kept ++ demoted) (hm : k = e.key ∨ k ∈ es.map Entry.key) :
    k ∈ kept.map Entry.key ∨ k ∈ demoted.map Entry.key := by
  rw [← List.mem_append, ← List.map_append, ← hsplit, List.map_cons, List.mem_cons]
  exact hm

/-- A protected key stays so when a key is read, unless one on probation is. -/
theorem Read.of_protection (h : p.Read key s s') (hk : k ∈ s.protection.map Entry.key) :
    k ∈ s'.protection.map Entry.key ∨
      key ∈ s.probation.map Entry.key ∧ k ∈ s'.probation.map Entry.key := by
  cases h with
  | inWindow _ _ => exact .inl hk
  | isProtected _ he => exact .inl (mem_cons_without he hk)
  | promoted he hek hsplit =>
    rcases mem_of_split hsplit (.inr hk) with hm | hm
    · exact .inl hm
    · refine .inr ⟨hek ▸ List.mem_map_of_mem he, ?_⟩
      rw [List.map_append, List.mem_append]
      exact .inl hm
  | untracked _ => exact .inl hk

/-- A protected key stays so when a key is offered, unless one of the main segment is. -/
theorem Offered.of_protection (h : p.Offered key cost s dropped s')
    (hk : k ∈ s.protection.map Entry.key) :
    k ∈ s'.protection.map Entry.key ∨
      key ∈ s.main.map Entry.key ∧ k ∈ s'.probation.map Entry.key := by
  rw [Segments.main, List.map_append, List.mem_append]
  cases h with
  | isProtected hkey hsplit =>
    have hm := mem_cons_without (e := ⟨key, (), cost⟩) rfl hk
    rw [List.map_cons, List.mem_cons] at hm
    rcases mem_of_split hsplit hm with hm | hm
    · exact .inl hm
    · refine .inr ⟨.inr hkey, ?_⟩
      rw [List.map_append, List.mem_append]
      exact .inl hm
  | promoted hkey hsplit =>
    rcases mem_of_split hsplit (.inr hk) with hm | hm
    · exact .inl hm
    · refine .inr ⟨.inl hkey, ?_⟩
      rw [List.map_append, List.mem_append]
      exact .inl hm
  | windowed _ _ _ => exact .inl hk

/-- A key on probation stays in the main segment when another key leaves probation for
protection. -/
theorem mem_main_of_probation {e : Entry Unit} {w es kept demoted : List (Entry Unit)}
    (hsplit : e :: es = kept ++ demoted) (hek : e.key = key)
    (hk : k ∈ s.probation.map Entry.key) :
    k ∈ (Segments.mk w (demoted ++ without s.probation key) kept).main.map Entry.key := by
  simp only [Segments.main, List.map_append, List.mem_append]
  by_cases hkk : k = key
  · rcases mem_of_split hsplit (.inl (hkk.trans hek.symm)) with hm | hm
    · exact .inr hm
    · exact .inl (.inl hm)
  · obtain ⟨d, hd, rfl⟩ := List.mem_map.1 hk
    exact .inl (.inr (List.mem_map_of_mem (RecencyList.mem_without.2 ⟨hd, hkk⟩)))

theorem Read.main (h : p.Read key s s') (hk : k ∈ s.main.map Entry.key) :
    k ∈ s'.main.map Entry.key := by
  rw [Segments.main, List.map_append, List.mem_append] at hk
  rcases hk with hb | ht
  · cases h with
    | inWindow _ _ | isProtected _ _ | untracked _ => simp [Segments.main, List.mem_map.1 hb]
    | promoted _ hek hsplit => exact mem_main_of_probation hsplit hek hb
  · rw [Segments.main, List.map_append, List.mem_append]
    exact (h.of_protection ht).symm.imp_left And.right

theorem Offered.main (h : p.Offered key cost s dropped s') (hk : k ∈ s.main.map Entry.key) :
    k ∈ s'.main.map Entry.key := by
  rw [Segments.main, List.map_append, List.mem_append] at hk
  rcases hk with hb | ht
  · cases h with
    | isProtected _ _ | windowed _ _ _ => simp [Segments.main, List.mem_map.1 hb]
    | promoted _ hsplit => exact mem_main_of_probation (e := ⟨key, (), cost⟩) hsplit rfl hb
  · rw [Segments.main, List.map_append, List.mem_append]
    exact (h.of_protection ht).symm.imp_left And.right

/-- What an offer rejects is the offered key or a key of the window. -/
theorem Offered.of_dropped (h : p.Offered key cost s dropped s') (hk : k ∈ dropped.map Entry.key) :
    k = key ∨ k ∈ s.window.map Entry.key := by
  cases h with
  | isProtected _ _ | promoted _ _ => cases hk
  | windowed _ _ hperm =>
    obtain ⟨e, he, rfl⟩ := List.mem_map.1 hk
    have hm := hperm.mem_iff.1 (List.mem_append_left _ (List.mem_append_right _ he))
    rcases List.mem_cons.1 hm with rfl | hm
    · exact .inl rfl
    · exact .inr (List.mem_map_of_mem (RecencyList.mem_without.1 hm).1)

/-- What an offer rejects was not in the main segment. -/
theorem Offered.dropped_not_main (h : p.Offered key cost s dropped s') (hs : p.Holds s)
    (hk : k ∈ dropped.map Entry.key) : k ∉ s.main.map Entry.key := by
  intro hm
  rw [Segments.main, List.map_append, List.mem_append] at hm
  rcases h.of_dropped hk with rfl | hw
  · cases h with
    | isProtected _ _ | promoted _ _ => cases hk
    | windowed hb ht _ => exact hm.elim hb ht
  · rcases hm with hb | ht
    · exact hs.not_mem_of_probation hb hw
    · exact hs.not_mem_protection (.inl hw) ht

/-! ## Capacities -/

/-- A policy that tracks no key twice and whose window and protected part are within their
capacities. -/
structure Fits (p : Admission) : Prop where
  holds : ∃ s, p.Holds s
  window_le : p.window.totalCost ≤ p.windowCapacity
  protection_le : p.protection.totalCost ≤ p.protectionCapacity

theorem fits_new (hash : Fin 4 → String → UInt64) (maxCost numCounters : UInt64) :
    (new hash maxCost numCounters).Fits :=
  ⟨(tracks_new hash maxCost numCounters).imp fun _ hs => hs.1, Nat.zero_le _, Nat.zero_le _⟩

/-- Demotion ends when the protected part fits. -/
theorem Demotes.protection_le {q : Admission} (hd : p.Demotes q) :
    q.protection.totalCost ≤ p.protectionCapacity := by
  induction hd with
  | fits hfits => exact hfits
  | demotes _ _ _ ih => exact ih

/-- Draining ends when the window fits. -/
theorem Drains.window_le {q : Admission} {keys : List String} (hd : p.Drains keys q) :
    q.window.totalCost ≤ p.windowCapacity := by
  induction hd with
  | fits hfits => exact hfits
  | accepts _ _ _ _ ih => exact ih
  | rejects _ _ _ _ ih => exact ih

theorem Holds.fits_demoteOverflow (h : p.Holds s) (hw : p.window.totalCost ≤ p.windowCapacity) :
    p.demoteOverflow.Fits := by
  have hle := h.demotes.protection_le
  obtain ⟨kept, demoted, -, hs'⟩ := h.demoteOverflow
  obtain ⟨_, _, heq⟩ := demoteOverflow_frame p
  rw [heq] at hs' hle ⊢
  exact ⟨⟨_, hs'⟩, hw, hle⟩

theorem Holds.fits_drainWindow (h : p.Holds s)
    (ht : p.protection.totalCost ≤ p.protectionCapacity) : p.drainWindow.2.Fits := by
  have hle := h.drains.window_le
  obtain ⟨front, accepted, rejected, -, -, hs'⟩ := h.drainWindow
  obtain ⟨_, _, _, heq⟩ := drainWindow_frame p
  rw [heq] at hs' hle ⊢
  exact ⟨⟨_, hs'⟩, hle, ht⟩

theorem Fits.recordReads (h : p.Fits) (key : String) (count : Nat) :
    (p.recordReads key count).Fits := by
  obtain ⟨s, hs⟩ := h.holds
  have hc := hs.counted key (min count maxReads)
  have hholds : ∃ s', (p.recordReads key count).Holds s' :=
    (hs.recordReads key count).imp fun _ hs' => hs'.1
  revert hholds
  unfold Admission.recordReads
  dsimp only
  split_ifs with hw ht
  · intro hholds
    exact ⟨hholds, (p.window.totalCost_touch key).trans_le h.window_le, h.protection_le⟩
  · intro hholds
    exact ⟨hholds, h.window_le, (p.protection.totalCost_touch key).trans_le h.protection_le⟩
  · split
    · rename_i e rest hr
      intro _
      obtain ⟨-, -, htaken, hne, -⟩ := hc.takeFromProbation hr
      exact (htaken.pushProtection e.cost hne).fits_demoteOverflow h.window_le
    · intro hholds
      exact ⟨hholds, h.window_le, h.protection_le⟩

theorem Fits.offer (h : p.Fits) (key : String) (cost : Nat) : (p.offer key cost).2.Fits := by
  obtain ⟨s, hs⟩ := h.holds
  have hc := hs.counted key 1
  by_cases ht : key ∈ s.protection.map Entry.key
  · have hoffer : p.offer key cost = ([], (p.counted key 1).protect key cost) :=
      if_pos (hs.protection.contains_iff.2 ht)
    rw [hoffer]
    exact (hc.pushProtection cost (hs.not_mem_of_protection ht)).fits_demoteOverflow h.window_le
  · cases hr : p.probation.remove key with
    | some found =>
      obtain ⟨e, rest⟩ := found
      obtain ⟨-, -, htaken, hne, -⟩ := hc.takeFromProbation hr
      rw [hs.offer_eq_protect ht hr]
      exact (htaken.pushProtection cost hne).fits_demoteOverflow h.window_le
    | none =>
      have hb := hs.probation.remove_eq_none_iff.1 hr
      rw [hs.offer_eq_drainWindow cost hb ht]
      exact (hs.pushed cost hb ht).fits_drainWindow h.protection_le

theorem totalCost_le_of_remove {l l' : RecencyList Unit} {e : Entry Unit}
    (hr : l.remove key = some (e, l')) : l'.totalCost ≤ l.totalCost :=
  (RecencyList.totals_of_remove hr).1.trans_le (Nat.sub_le _ _)

theorem Fits.remove (h : p.Fits) (key : String) : (p.remove key).2.Fits := by
  obtain ⟨s, hs⟩ := h.holds
  have hholds : ∃ s', (p.remove key).2.Holds s' := ⟨_, hs.remove key⟩
  revert hholds
  unfold Admission.remove
  split
  · rename_i hr
    exact fun hholds => ⟨hholds, (totalCost_le_of_remove hr).trans h.window_le, h.protection_le⟩
  · split
    · exact fun hholds => ⟨hholds, h.window_le, h.protection_le⟩
    · split
      · rename_i hr
        exact fun hholds =>
          ⟨hholds, h.window_le, (totalCost_le_of_remove hr).trans h.protection_le⟩
      · exact fun hholds => ⟨hholds, h.window_le, h.protection_le⟩

theorem totalCost_free_le (l : RecencyList Unit) (need freed : Nat) :
    (free l need freed).2.totalCost ≤ l.totalCost := by
  fun_induction free l need freed with
  | case1 l => exact Nat.le_refl _
  | case2 l freed _ e rest hp victims left heq ih =>
    rw [heq] at ih
    exact ih.trans ((RecencyList.totals_of_popBack hp).1.trans_le (Nat.sub_le _ _))
  | case3 l => exact Nat.le_refl _

theorem Fits.evict (h : p.Fits) (need : Nat) : (p.evict need).2.Fits := by
  obtain ⟨s, hs⟩ := h.holds
  obtain ⟨kept, gone, -, -, hkept, -⟩ := hs.evict need
  exact ⟨⟨kept, hkept⟩, (totalCost_free_le _ _ _).trans h.window_le,
    (totalCost_free_le _ _ _).trans h.protection_le⟩

theorem Fits.clear (p : Admission) : p.clear.Fits :=
  ⟨p.tracks_clear.imp fun _ hs => hs.1, Nat.zero_le _, Nat.zero_le _⟩

/-- A policy that tracks no key twice and whose window and protected part are within their
capacities, which fit together: window and main segment share the bound. -/
structure Sized (p : Admission) (bound : Nat) : Prop where
  holds : ∃ s, p.Holds s
  window_le : p.window.totalCost ≤ p.windowCapacity
  protection_le : p.protection.totalCost ≤ p.protectionCapacity
  shared : p.windowCapacity + p.mainCapacity = bound
  part : p.protectionCapacity ≤ p.mainCapacity
  room : 1 ≤ p.windowCapacity

theorem Sized.fits (h : p.Sized bound) : p.Fits := ⟨h.holds, h.window_le, h.protection_le⟩

theorem sized_new (hash : Fin 4 → String → UInt64) {maxCost : UInt64} (h : maxCost ≠ 0)
    (numCounters : UInt64) : (new hash maxCost numCounters).Sized maxCost.toNat where
  holds := (fits_new hash maxCost numCounters).holds
  window_le := Nat.zero_le _
  protection_le := Nat.zero_le _
  shared := Sizing.window_add_mainSegment maxCost
  part := Sizing.protection_le_mainSegment maxCost
  room := Sizing.one_le_window h

/-- A request that only moves keys between segments and counts uses leaves the capacities alone. -/
theorem Sized.of_frame (h : p.Sized bound) {window probation protection : RecencyList Unit}
    {sketch : Sketch} {sumOverflowed : Bool}
    (hfits : Fits { p with window, probation, protection, sketch, sumOverflowed }) :
    Sized { p with window, probation, protection, sketch, sumOverflowed } bound :=
  ⟨hfits.holds, hfits.window_le, hfits.protection_le, h.shared, h.part, h.room⟩

theorem Sized.recordReads (h : p.Sized bound) (key : String) (count : Nat) :
    (p.recordReads key count).Sized bound := by
  have hfits := h.fits.recordReads key count
  obtain ⟨_, _, _, heq⟩ := p.recordReads_frame key count
  rw [heq] at hfits ⊢
  exact h.of_frame hfits

theorem Sized.offer (h : p.Sized bound) (key : String) (cost : Nat) :
    (p.offer key cost).2.Sized bound := by
  have hfits := h.fits.offer key cost
  obtain ⟨_, _, _, _, heq⟩ := p.offer_frame key cost
  rw [heq] at hfits ⊢
  exact h.of_frame hfits

theorem Sized.remove (h : p.Sized bound) (key : String) : (p.remove key).2.Sized bound := by
  have hfits := h.fits.remove key
  obtain ⟨_, _, _, heq⟩ := p.remove_frame key
  rw [heq] at hfits ⊢
  exact h.of_frame hfits

theorem Sized.noteSum (h : p.Sized bound) (overflows : Bool) : (p.noteSum overflows).Sized bound :=
  h.of_frame ⟨h.holds.imp fun _ hs => hs.noteSum overflows, h.window_le, h.protection_le⟩

theorem Sized.clear (h : p.Sized bound) : p.clear.Sized bound := h.of_frame (Fits.clear p)

/-! ## Enforcing the bound -/

theorem totalCost_le_add (p : Admission) :
    p.totalCost ≤ p.window.totalCost + p.probation.totalCost + p.protection.totalCost :=
  (Word.add_le _ _).trans (Nat.add_le_add_right (Word.add_le _ _) _)

/-- What exceeds the bound is on probation. -/
theorem Sized.excess_le (h : p.Sized bound) : p.totalCost - bound ≤ p.probation.totalCost := by
  have htotal := p.totalCost_le_add
  have hw := h.window_le
  have ht := h.protection_le
  have hshared := h.shared
  have hpart := h.part
  omega

/-- Evicting what exceeds the bound changes probation alone. -/
theorem Sized.evict_eq (h : p.Sized bound) (hp : p.probation.overflowed = false) :
    p.evict (p.totalCost - bound) =
      ((free p.probation (p.totalCost - bound) 0).1,
        { p with probation := (free p.probation (p.totalCost - bound) 0).2 }) := by
  obtain ⟨s, hs⟩ := h.holds
  exact hs.evict_of_le hp h.excess_le

theorem Sized.evict (h : p.Sized bound) (need : Nat) : (p.evict need).2.Sized bound :=
  h.of_frame (h.fits.evict need)

/-- The victims are on probation. -/
theorem Sized.contains_of_evict (h : p.Sized bound) (hp : p.probation.overflowed = false)
    {e : Entry Unit}
    (he : e ∈ (p.evict (p.totalCost - bound)).1) :
    p.probation.contains e.key = true ∧ p.protection.contains e.key = false ∧
      p.window.contains e.key = false := by
  obtain ⟨s, hs⟩ := h.holds
  obtain ⟨kept, -, hes, -⟩ := holds_free hs.probation (p.totalCost - bound) 0
  rw [h.evict_eq hp] at he
  have hb : e.key ∈ s.probation.map Entry.key := by
    apply List.mem_map_of_mem
    rw [hes]
    exact List.mem_append_right _ (List.mem_reverse.2 he)
  refine ⟨hs.probation.contains_iff.2 hb, ?_, ?_⟩
  · rw [Bool.eq_false_iff, ne_eq, hs.protection.contains_iff]
    exact hs.not_mem_protection (.inr hb)
  · rw [Bool.eq_false_iff, ne_eq, hs.window.contains_iff]
    exact hs.not_mem_of_probation hb

end Admission

end PodCache
