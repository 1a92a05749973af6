import PodCache.Proofs.Local.Displacement
import PodCache.Proofs.Local.Tracking

/-!
# Reads that reach the policy

A maintenance pass tells the policy of the buffered reads before it tells of the waiting writes, and
of a read only if the policy tracks its key then.  So every buffered read of a tracked key is
counted (`estimate_of_tracked`), but the reads of a key whose first write still waits are lost: the
pass is the same without them (`heard_eq_heeded`), and all that is counted of the key is its write
(`estimate_of_untracked`).
-/

namespace PodCache

open RecencyList (without costSum)

/-! ## Reads in the buffer -/

namespace ReadBuffer

/-- How many reads of a key the next drain takes out. -/
def held (b : ReadBuffer) (key : String) : Nat := (b.active.get (b.stripeOf key))[key]?.getD 0

theorem mem_drain_of_held {b : ReadBuffer} {key : String} (h : b.held key ≠ 0) :
    (key, b.held key) ∈ b.drain.1 := by
  have hcount : (b.active.get (b.stripeOf key))[key]? = some (b.held key) := by
    unfold held at h ⊢
    generalize (b.active.get (b.stripeOf key))[key]? = found at h ⊢
    cases found with
    | none => exact absurd rfl h
    | some n => rfl
  refine List.mem_flatMap.2 ⟨b.active.get (b.stripeOf key), ?_, ?_⟩
  · rw [Vector.mem_toList_iff]
    exact Vector.getElem_mem _
  · exact Std.TreeMap.mem_toList_iff_getElem?_eq_some.2 hcount

end ReadBuffer

namespace FrequencyCache

variable {V : Type} {c d : FrequencyCache V} {us : List Use} {u : Use} {key k : String}
  {bound : Nat} {es : List (Entry Unit)}

/-! ## Counters that belong together -/

theorem wellFormed_hear (h : c.policy.sketch.WellFormed) (u : Use) :
    (c.hear u).policy.sketch.WellFormed := by
  have hu := c.hears u
  revert hu
  generalize (c.hear u).policy = q
  rintro (_ | _ | _ | _)
  · exact h
  · obtain ⟨_, _, _, heq⟩ := c.policy.recordReads_frame _ _
    rw [heq]
    exact h.incrementMany _ _
  · exact h
  · obtain ⟨_, _, _, _, heq⟩ := c.policy.offer_frame _ _
    rw [heq]
    exact h.increment _

theorem wellFormed_perform (h : c.policy.sketch.WellFormed) (r : LocalRequest V) :
    (c.perform r).policy.sketch.WellFormed := by
  cases r with
  | get key =>
    obtain ⟨_, _, _, heq⟩ := c.get_frame key
    rw [perform, heq]
    exact h
  | set key value cost =>
    unfold perform
    dsimp only
    split_ifs <;> exact h
  | delete key =>
    obtain ⟨_, _, _, heq⟩ := c.policy.remove_frame key
    rw [perform, delete, heq]
    exact h
  | clear | close => exact h.clear
  | maintain => exact h

theorem wellFormed_run {chance : Chance} {config : LocalConfig} (h : new chance config = .ok c)
    (rs : List (LocalRequest V)) : (c.run rs).policy.sketch.WellFormed := by
  induction rs using List.reverseRecOn with
  | nil =>
    obtain ⟨-, -, readCapacity, -, rfl⟩ := exists_eq_empty_of_new h
    exact Sketch.wellFormed_new _ _ _
  | append_singleton rs r ih =>
    have hperformed := wellFormed_perform ih r
    rw [run_append_singleton, serve_eq]
    split_ifs
    · rw [sketch_maintain]
      exact foldl_hear_induction (P := fun d => d.policy.sketch.WellFormed)
        (c := ((c.run rs).perform r).emptied) (fun _ u hd => wellFormed_hear hd u) hperformed _
    · exact hperformed

/-! ## Reads that are heard -/

/-- Whether the policy heeds a use in the next pass: the reads of keys that it does not track when
the pass begins are lost. -/
def heeds (c : FrequencyCache V) : Use → Bool
  | .read key _ => c.policy.contains key
  | .write _ => true

theorem tracks_hear_reads (h : c.policy.Tracks es) (reads : List (String × Nat)) :
    ((reads.map fun read => Use.read read.1 read.2).foldl hear c).policy.Tracks es := by
  rw [hear_reads]
  exact tracks_applyReads h reads

theorem foldl_hear_heeded (h : c.policy.Tracks es) (hd : d.policy.Tracks es)
    (reads : List (String × Nat)) :
    ((reads.map fun read => Use.read read.1 read.2).filter c.heeds).foldl hear d =
      (reads.map fun read => Use.read read.1 read.2).foldl hear d := by
  induction reads generalizing d with
  | nil => rfl
  | cons read reads ih =>
    have hnext : (d.hear (.read read.1 read.2)).policy.Tracks es := tracks_hear_reads hd [read]
    rw [List.map_cons, List.foldl_cons, ← ih hnext, List.filter_cons]
    by_cases hk : c.policy.contains read.1 = true
    · have hheeds : c.heeds (.read read.1 read.2) = true := hk
      rw [if_pos hheeds, List.foldl_cons]
    · have hheeds : ¬ c.heeds (.read read.1 read.2) = true := hk
      have hskip : d.hear (.read read.1 read.2) = d := by
        have hd' : ¬ d.policy.contains read.1 = true := by
          rwa [hd.contains_iff, ← h.contains_iff]
        simp only [hear, applyRead, if_neg hd']
      rw [if_neg hheeds, hskip]

/-- A pass is the same without the reads of keys that are not tracked when it begins. -/
theorem heard_eq_heeded (h : c.policy.Tracks es) :
    c.heard = (c.waiting.filter c.heeds).foldl hear c.emptied := by
  have hwrites : (c.writes.map Use.write).filter c.heeds = c.writes.map Use.write := by
    rw [List.filter_eq_self]
    intro u hu
    obtain ⟨key, -, rfl⟩ := List.mem_map.1 hu
    rfl
  rw [heard, waiting, List.filter_append, hwrites, List.foldl_append, List.foldl_append,
    foldl_hear_heeded (d := c.emptied) h h]

/-! ## Estimates at the end of a pass -/

theorem Meets.le_estimate (h : c.Meets us d u)
    (hyoung : ∀ d u, c.Meets us d u → d.counted u = 0 ∨
      d.policy.sketch.increments + d.counted u < d.policy.sketch.sample) (x : String) :
    c.policy.sketch.estimate x ≤ d.policy.sketch.estimate x := by
  induction h with
  | here => exact UInt8.le_refl _
  | @later c d u u' us _ ih =>
    have hrest := ih fun d u' hm => hyoung d u' (.later hm)
    exact UInt8.le_trans (estimate_le_hear (hyoung c u .here) x) hrest

/-- When a use of a key is next, all that it counts is in the estimate at the end. -/
theorem estimate_of_meets {n : Nat} (hwell : c.policy.sketch.WellFormed) (hyoung : ¬ c.Ages)
    (hm : c.emptied.Meets c.waiting d u) (hn : d.counted u = n)
    (hsketch : (d.hear u).policy.sketch = d.policy.sketch.incrementMany key n) :
    min 255 ((c.policy.sketch.estimate key).toNat + n) ≤
      (c.maintain.policy.sketch.estimate key).toNat := by
  have hall := not_ages hyoung
  have hbefore := UInt8.le_iff_toNat_le.1 (hm.le_estimate hall key)
  have hafter := UInt8.le_iff_toNat_le.1 (hm.estimate_le hall key)
  have hd : d.policy.sketch.WellFormed :=
    Meets.induction (P := fun d => d.policy.sketch.WellFormed)
      (fun _ u hd => wellFormed_hear hd u) hm hwell
  have hfits := hall d u hm
  rw [hn] at hfits
  have hcount := Sketch.estimate_incrementMany hd key hfits
  rw [← hsketch] at hcount
  rw [sketch_maintain]
  change (c.policy.sketch.estimate key).toNat ≤ _ at hbefore
  change _ ≤ (c.heard.policy.sketch.estimate key).toNat at hafter
  omega

theorem le_estimate_maintain (hyoung : ¬ c.Ages) (key : String) :
    c.policy.sketch.estimate key ≤ c.maintain.policy.sketch.estimate key := by
  rw [sketch_maintain]
  exact estimate_le_foldl_hear (c := c.emptied) (not_ages hyoung) key

/-- The buffered reads of a tracked key are counted. -/
theorem estimate_of_tracked (hsized : c.policy.Sized c.maxCost)
    (hwell : c.policy.sketch.WellFormed) (hyoung : ¬ c.Ages)
    (hk : c.policy.contains key = true) :
    min 255 ((c.policy.sketch.estimate key).toNat + c.reads.held key) ≤
      (c.maintain.policy.sketch.estimate key).toNat := by
  by_cases hheld : c.reads.held key = 0
  · have hle := UInt8.le_iff_toNat_le.1 (le_estimate_maintain hyoung key)
    omega
  · -- the reads of the key are told at some point, when it is still tracked
    have hread : (key, c.reads.held key) ∈ (c.shuffle c.passes).apply c.reads.drain.1 :=
      ((c.shuffle c.passes).perm _).mem_iff.2 (ReadBuffer.mem_drain_of_held hheld)
    obtain ⟨pre, post, hsplit⟩ := List.append_of_mem hread
    have hm : c.emptied.Meets c.waiting
        ((pre.map fun read => Use.read read.1 read.2).foldl hear c.emptied)
        (.read key (c.reads.held key)) := by
      rw [waiting, hsplit, List.map_append, List.map_cons, List.append_assoc, List.cons_append]
      exact meets_append _ _ _ _
    generalize hd : (pre.map fun read => Use.read read.1 read.2).foldl hear c.emptied = d at hm
    obtain ⟨s, hs⟩ := hsized.holds
    have ht : c.policy.Tracks s.all := ⟨s, hs, .refl _⟩
    have hdt : d.policy.Tracks s.all := by
      rw [← hd]
      exact tracks_hear_reads (c := c.emptied) ht pre
    have hdk : d.policy.contains key = true := by
      rwa [hdt.contains_iff, ← ht.contains_iff]
    have hsketch : (d.hear (.read key (c.reads.held key))).policy.sketch =
        d.policy.sketch.incrementMany key (min (c.reads.held key) Admission.maxReads) := by
      obtain ⟨_, _, _, heq⟩ := d.policy.recordReads_frame key (c.reads.held key)
      simp only [hear, applyRead, if_pos hdk, heq]
    have hmin := estimate_of_meets hwell hyoung hm (if_pos hdk) hsketch
    unfold Admission.maxReads at hmin
    omega

/-- Writes of other keys do not drop a key that is not tracked. -/
theorem resident_applyWrite (hsized : c.policy.Sized bound) (hne : k ≠ key)
    (hk : c.policy.contains key = false) :
    (c.applyWrite k).resident[key]? = c.resident[key]? ∧
      (c.applyWrite k).policy.contains key = false := by
  unfold applyWrite
  cases hslot : c.resident[k]? with
  | none => exact ⟨rfl, hk⟩
  | some slot =>
    obtain ⟨s, hs⟩ := hsized.holds
    have ht : c.policy.Tracks s.all := ⟨s, hs, .refl _⟩
    obtain ⟨kept, dropped, hkept, -, -⟩ := ht.offer k slot.cost
    obtain ⟨-, hrejected, hcosts⟩ := ht.conserves_offer k slot.cost
    have hnot : key ∉ (c.policy.offer k slot.cost).1 := by
      intro hm
      rcases hrejected key hm with heq | hin
      · exact hne heq.symm
      · rw [hk] at hin
        cases hin
    dsimp only
    rw [resident_evictKeys, if_neg hnot, policy_evictKeys]
    refine ⟨rfl, ?_⟩
    rw [hkept.contains_eq_isSome, hcosts, if_neg hnot, if_neg (Ne.symm hne),
      ← ht.contains_eq_isSome, hk]

theorem resident_applyWrites {keys : List String} (hsized : c.policy.Sized bound)
    (hkeys : key ∉ keys) (hk : c.policy.contains key = false) :
    (keys.foldl applyWrite c).resident[key]? = c.resident[key]? := by
  induction keys generalizing c with
  | nil => rfl
  | cons k keys ih =>
    rw [List.mem_cons, not_or] at hkeys
    obtain ⟨hres, hk'⟩ := resident_applyWrite hsized (Ne.symm hkeys.1) hk
    exact (ih (sized_hear hsized (.write k)) hkeys.2 hk').trans hres

/-- Of a resident key that is not tracked the write that waits is counted. -/
theorem estimate_of_untracked {slot : Slot V} (hsized : c.policy.Sized c.maxCost)
    (hwell : c.policy.sketch.WellFormed) (hyoung : ¬ c.Ages) (hslot : c.resident[key]? = some slot)
    (hk : c.policy.contains key = false) (hw : key ∈ c.writes) :
    min 255 ((c.policy.sketch.estimate key).toNat + 1) ≤
      (c.maintain.policy.sketch.estimate key).toNat := by
  obtain ⟨pre, post, hsplit, hpre⟩ := List.eq_append_cons_of_mem hw
  have hm : c.emptied.Meets c.waiting (pre.foldl applyWrite c.readsHeard) (.write key) := by
    have hall := meets_append c.emptied
      (((c.shuffle c.passes).apply c.reads.drain.1).map (fun read => Use.read read.1 read.2) ++
        pre.map Use.write) (post.map Use.write) (.write key)
    rw [List.foldl_append, List.foldl_map (f := Use.write)] at hall
    rw [waiting, hsplit, List.map_append, List.map_cons, ← List.append_assoc]
    exact hall
  -- before the first write of the key is told, nothing drops it
  have hunread : c.readsHeard.policy.contains key = false := by
    obtain ⟨s, hs⟩ := hsized.holds
    have ht : c.policy.Tracks s.all := ⟨s, hs, .refl _⟩
    rw [Bool.eq_false_iff, ne_eq, (tracks_readsHeard ht).contains_iff, ← ht.contains_iff, hk]
    exact Bool.false_ne_true
  have hres := resident_applyWrites (sized_readsHeard hsized) hpre hunread
  rw [resident_readsHeard, hslot] at hres
  generalize pre.foldl applyWrite c.readsHeard = d at hm hres
  have hcontains : d.resident.contains key = true := by
    rw [Std.TreeMap.contains_eq_isSome_getElem?, hres]
    rfl
  have hsketch : (d.hear (.write key)).policy.sketch = d.policy.sketch.incrementMany key 1 := by
    obtain ⟨_, _, _, _, heq⟩ := d.policy.offer_frame key slot.cost
    simp only [hear, applyWrite, hres, policy_evictKeys, heq]
    rfl
  exact estimate_of_meets hwell hyoung hm (if_pos hcontains) hsketch

/-! ## Main results -/

/-- In every pass of a run the buffered reads of the tracked keys are counted, unless the sketch is
halved, and the pass is the same without the other reads.  What is resident but not tracked waits to
be written, and of it that write is counted. -/
theorem reads_reach_tracked_keys {chance : Chance} {config : LocalConfig}
    (h : new chance config = .ok c) (rs : List (LocalRequest V)) (r : LocalRequest V)
    (hpass : (c.run rs).MakesPass r) :
    let d := (c.run rs).perform r
    (c.run rs).serve r = d.maintain ∧
    d.maintain = ((d.waiting.filter d.heeds).foldl hear d.emptied).enforceBound ∧
    (¬ d.Ages → ∀ key, d.resident.contains key = true →
      (d.policy.contains key = true →
        min 255 ((d.policy.sketch.estimate key).toNat + d.reads.held key) ≤
          (d.maintain.policy.sketch.estimate key).toNat) ∧
      (d.policy.contains key = false → key ∈ d.writes ∧
        min 255 ((d.policy.sketch.estimate key).toNat + 1) ≤
          (d.maintain.policy.sketch.estimate key).toNat)) := by
  intro d
  have hsized : d.policy.Sized d.maxCost := sized_perform (sized_run h rs) r
  have hwell : d.policy.sketch.WellFormed :=
    wellFormed_perform (wellFormed_run h rs) r
  obtain ⟨es, ht, ha⟩ : d.Books d.writes := (balanced_run h rs).books_perform r
  refine ⟨?_, ?_, fun hyoung key hres => ⟨?_, fun hk => ?_⟩⟩
  · rw [serve_eq, if_pos hpass]
  · rw [maintain_eq, heard_eq_heeded ht]
  · exact estimate_of_tracked hsized hwell hyoung
  · rw [Std.TreeMap.contains_eq_isSome_getElem?, Option.isSome_iff_exists] at hres
    obtain ⟨slot, hslot⟩ := hres
    have hw : key ∈ d.writes := by
      rcases ha.booked key slot hslot with hw | he
      · exact hw
      · have hin := ht.contains_iff.2 (List.mem_map_of_mem he)
        rw [hk] at hin
        cases hin
    exact ⟨hw, estimate_of_untracked hsized hwell hyoung hslot hk hw⟩

/-- Two reads after the write was told are counted. -/
theorem reads_reach_written_key :
    ∃ c : FrequencyCache Nat, new charChance threeEntries = .ok c ∧
      let d := c.run [.set "h" 1 1, .maintain, .get "h", .get "h"]
      d.reads.held "h" = 2 ∧ (d.policy.sketch.estimate "h").toNat = 1 ∧
        3 ≤ (d.maintain.policy.sketch.estimate "h").toNat := by
  refine ⟨_, rfl, ?_⟩
  intro d
  obtain ⟨-, -, hpass⟩ := reads_reach_tracked_keys
    (show new (V := Nat) charChance threeEntries = .ok _ from rfl)
    [.set "h" 1 1, .maintain, .get "h", .get "h"] .maintain trivial
  have hheld : d.reads.held "h" = 2 := by decide +kernel
  have hbefore : (d.policy.sketch.estimate "h").toNat = 1 := by decide +kernel
  have hyoung : ¬ d.Ages := by
    have hwaiting : d.waiting = [.read "h" 2] := by decide +kernel
    rintro ⟨b, w, hm, -, hold⟩
    rw [hwaiting] at hm
    cases hm with
    | here => exact absurd hold (by decide +kernel)
    | later hm => cases hm
  obtain ⟨hle, -⟩ := hpass hyoung "h" (by decide +kernel)
  replace hle : min 255 ((d.policy.sketch.estimate "h").toNat + d.reads.held "h") ≤
      (d.maintain.policy.sketch.estimate "h").toNat := hle (by decide +kernel)
  rw [hbefore, hheld] at hle
  exact ⟨hheld, hbefore, hle⟩

/-- Two reads before the write is told are lost. -/
theorem reads_before_write_are_lost :
    ∃ c : FrequencyCache Nat, new charChance threeEntries = .ok c ∧
      let d := c.run [.set "h" 1 1, .get "h", .get "h"]
      ¬ d.Ages ∧ d.resident.contains "h" = true ∧ d.reads.held "h" = 2 ∧
        (d.maintain.policy.sketch.estimate "h").toNat <
          min 255 ((d.policy.sketch.estimate "h").toNat + d.reads.held "h") := by
  refine ⟨_, rfl, ?_⟩
  intro d
  refine ⟨?_, by decide +kernel, by decide +kernel, by decide +kernel⟩
  have hwaiting : d.waiting = [.read "h" 2, .write "h"] := by decide +kernel
  rintro ⟨b, w, hm, -, hold⟩
  rw [hwaiting] at hm
  obtain _ | _ | ⟨⟨⟩⟩ := hm
  · exact absurd hold (by decide +kernel)
  · exact absurd hold (by decide +kernel)

end FrequencyCache

end PodCache
