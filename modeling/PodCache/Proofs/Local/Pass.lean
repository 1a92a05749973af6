import PodCache.Proofs.Local.Bookkeeping
import PodCache.Proofs.Local.Capacity

/-!
# Maintenance passes, one use at a time

In a maintenance pass the policy hears of one use after the other, first of the reads and then of
the writes, and in the end the bound is enforced (`maintain_eq`).  `c.Meets us d u` says that on the
way through the uses `us` the cache `c` becomes `d` when the use `u` is next, so that a statement
about every moment of a pass is one about all that is met.  A pass is made on demand or by a set
that fills the write buffer: each request first does what it does at once (`perform`), and then
makes a pass or not (`MakesPass`).
-/

namespace PodCache

/-- What the policy of a frequency cache may hear of. -/
inductive Use where
  | read (key : String) (count : Nat)
  | write (key : String)
  deriving DecidableEq

namespace FrequencyCache

variable {V : Type} {c d : FrequencyCache V} {us : List Use} {u : Use}

/-- The cache after its policy has heard of a use. -/
def hear (c : FrequencyCache V) : Use → FrequencyCache V
  | .read key count => { c with policy := applyRead c.policy (key, count) }
  | .write key => c.applyWrite key

/-- What waits for the next pass, in the order in which the policy will hear of it. -/
def waiting (c : FrequencyCache V) : List Use :=
  ((c.shuffle c.passes).apply c.reads.drain.1).map (fun read => .read read.1 read.2) ++
    c.writes.map .write

/-- The cache when its pass begins: nothing waits any longer. -/
def emptied (c : FrequencyCache V) : FrequencyCache V :=
  { c with reads := c.reads.drain.2, writes := [], passes := c.passes + 1 }

/-- The cache when its policy has heard of all that waited and the bound is still to be enforced. -/
def heard (c : FrequencyCache V) : FrequencyCache V := c.waiting.foldl hear c.emptied

theorem hear_reads (c : FrequencyCache V) (reads : List (String × Nat)) :
    (reads.map fun read => Use.read read.1 read.2).foldl hear c =
      { c with policy := reads.foldl applyRead c.policy } := by
  induction reads generalizing c with
  | nil => rfl
  | cons read reads ih => exact ih (c.hear (.read read.1 read.2))

/-- The cache in its pass when the policy has heard of the reads and the writes are next. -/
def readsHeard (c : FrequencyCache V) : FrequencyCache V :=
  (((c.shuffle c.passes).apply c.reads.drain.1).map
    fun read => Use.read read.1 read.2).foldl hear c.emptied

theorem readsHeard_eq (c : FrequencyCache V) :
    c.readsHeard = { c.emptied with
      policy := ((c.shuffle c.passes).apply c.reads.drain.1).foldl applyRead c.policy } :=
  hear_reads _ _

theorem resident_readsHeard (c : FrequencyCache V) : c.readsHeard.resident = c.resident := by
  rw [readsHeard_eq]
  rfl

theorem heard_eq (c : FrequencyCache V) : c.heard = c.writes.foldl applyWrite c.readsHeard := by
  rw [heard, waiting, List.foldl_append, List.foldl_map]
  rfl

/-- A pass is the uses that waited, one by one, and then the bound. -/
theorem maintain_eq (c : FrequencyCache V) : c.maintain = c.heard.enforceBound := by
  rw [heard_eq, readsHeard_eq]
  rfl

/-! ## The moments of a pass -/

/-- Hearing of uses, one after the other, the cache becomes another one and a use is next. -/
inductive Meets : FrequencyCache V → List Use → FrequencyCache V → Use → Prop
  | here {c : FrequencyCache V} {u : Use} {us : List Use} : Meets c (u :: us) c u
  | later {c d : FrequencyCache V} {u u' : Use} {us : List Use} (h : Meets (c.hear u) us d u') :
    Meets c (u :: us) d u'

theorem foldl_hear_induction {P : FrequencyCache V → Prop} (step : ∀ c u, P c → P (c.hear u))
    (h : P c) (us : List Use) : P (us.foldl hear c) := by
  induction us generalizing c with
  | nil => exact h
  | cons u us ih => exact ih (step c u h)

theorem Meets.induction {P : FrequencyCache V → Prop} (step : ∀ c u, P c → P (c.hear u))
    (h : c.Meets us d u) (hc : P c) : P d := by
  induction h with
  | here => exact hc
  | later _ ih => exact ih (step _ _ hc)

/-! ## What a use does -/

theorem hear_trims (c : FrequencyCache V) (u : Use) : (c.hear u).Trims c := by
  cases u with
  | read key count => exact ⟨⟨c.resident, _, c.evictions, rfl⟩, fun _ _ h => h⟩
  | write key => exact applyWrite_trims c key

theorem heard_trims (c : FrequencyCache V) : c.heard.Trims c.emptied :=
  Trims.foldl hear_trims _ _

theorem Trims.maxCost_eq (h : d.Trims c) : d.maxCost = c.maxCost := by
  obtain ⟨_, _, _, rfl⟩ := h.frame
  rfl

/-- What a use does to the policy: it hears of reads of tracked keys and of written keys that are
still resident. -/
inductive Hears (c : FrequencyCache V) : Use → Admission → Prop
  | unheardRead {key : String} {count : Nat} (hk : c.policy.contains key = false) :
    Hears c (.read key count) c.policy
  | read {key : String} {count : Nat} (hk : c.policy.contains key = true) :
    Hears c (.read key count) (c.policy.recordReads key count)
  | unheardWrite {key : String} (hk : c.resident[key]? = none) : Hears c (.write key) c.policy
  | write {key : String} {slot : Slot V} (hk : c.resident[key]? = some slot) :
    Hears c (.write key) (c.policy.offer key slot.cost).2

theorem hears (c : FrequencyCache V) (u : Use) : c.Hears u (c.hear u).policy := by
  cases u with
  | read key count =>
    cases hk : c.policy.contains key with
    | false =>
      have heq : (c.hear (.read key count)).policy = c.policy := if_neg (by simp [hk])
      rw [heq]
      exact .unheardRead hk
    | true =>
      have heq : (c.hear (.read key count)).policy = c.policy.recordReads key count := if_pos hk
      rw [heq]
      exact .read hk
  | write key =>
    cases hk : c.resident[key]? with
    | none =>
      have heq : (c.hear (.write key)).policy = c.policy := by simp [hear, applyWrite, hk]
      rw [heq]
      exact .unheardWrite hk
    | some slot =>
      have heq : (c.hear (.write key)).policy = (c.policy.offer key slot.cost).2 := by
        simp only [hear, applyWrite, hk, policy_evictKeys]
      rw [heq]
      exact .write hk

theorem sized_hear {bound : Nat} (h : c.policy.Sized bound) (u : Use) :
    (c.hear u).policy.Sized bound := by
  have hu := c.hears u
  revert hu
  generalize (c.hear u).policy = q
  rintro (_ | _ | _ | _)
  · exact h
  · exact h.recordReads _ _
  · exact h
  · exact h.offer _ _

/-- Keys of the main segment stay there as long as the bound is not enforced. -/
theorem inMain_hear {bound : Nat} {key : String} (h : c.policy.Sized bound) (u : Use)
    (hk : c.policy.inMain key = true) : (c.hear u).policy.inMain key = true := by
  have hu := c.hears u
  revert hu
  generalize (c.hear u).policy = q
  obtain ⟨s, hs⟩ := h.holds
  rintro (_ | _ | _ | _)
  · exact hk
  · obtain ⟨s', hs', hread⟩ := hs.recordReads _ _
    exact hs'.inMain_iff.2 (hread.main (hs.inMain_iff.1 hk))
  · exact hk
  · obtain ⟨s', dropped, hs', -, hoffer⟩ := hs.offer _ _
    exact hs'.inMain_iff.2 (hoffer.main (hs.inMain_iff.1 hk))

/-! ## Enforcing the bound -/

theorem resident_enforceBound (c : FrequencyCache V) (key : String) :
    c.enforceBound.resident[key]? =
      if key ∈ (c.summed.evict (c.summed.totalCost - c.maxCost)).1.map Entry.key then none
      else c.resident[key]? := by
  rw [enforceBound_eq, resident_evictKeys]

theorem maxCost_heard (c : FrequencyCache V) : c.heard.maxCost = c.maxCost :=
  c.heard_trims.maxCost_eq

theorem sized_readsHeard (h : c.policy.Sized c.maxCost) : c.readsHeard.policy.Sized c.maxCost :=
  foldl_hear_induction (P := fun d => d.policy.Sized c.maxCost) (c := c.emptied)
    (fun _ u hd => sized_hear hd u) h _

theorem sized_heard (h : c.policy.Sized c.maxCost) : c.heard.policy.Sized c.heard.maxCost := by
  rw [maxCost_heard]
  exact foldl_hear_induction (P := fun d => d.policy.Sized c.maxCost) (c := c.emptied)
    (fun _ u hd => sized_hear hd u) h c.waiting

theorem sized_maintain (h : c.policy.Sized c.maxCost) : c.maintain.policy.Sized c.maxCost := by
  have hs := ((sized_heard h).noteSum c.heard.policy.totalOverflows).evict
    (c.heard.summed.totalCost - c.heard.maxCost)
  rw [maintain_eq, policy_enforceBound]
  rwa [maxCost_heard] at hs ⊢

/-- The closing step of a pass counts no uses. -/
theorem sketch_maintain (c : FrequencyCache V) :
    c.maintain.policy.sketch = c.heard.policy.sketch := by
  rw [maintain_eq, policy_enforceBound]
  rfl

/-! ## Sums of costs in a pass -/

theorem overflowed_of_hear (h : (c.hear u).overflowed = false) : c.overflowed = false := by
  have hu := c.hears u
  unfold overflowed at h ⊢
  revert hu h
  generalize (c.hear u).policy = q
  rintro h (_ | _ | _ | _)
  · exact h
  · exact Admission.overflowed_of_recordReads h
  · exact h
  · exact Admission.overflowed_of_offer h

theorem overflowed_of_foldl_hear (h : (us.foldl hear c).overflowed = false) :
    c.overflowed = false := by
  induction us generalizing c with
  | nil => exact h
  | cons u us ih => exact overflowed_of_hear (ih h)

/-- When no sum of a pass was too great, the cost of all tracked keys was not before its closing
step. -/
theorem sumsFit_heard (hfit : c.maintain.overflowed = false) : c.heard.policy.SumsFit := by
  rw [maintain_eq, overflowed, policy_enforceBound] at hfit
  exact Admission.overflowed_noteSum_total_eq_false_iff.1 (Admission.overflowed_of_evict hfit)

theorem overflowed_of_maintain (hfit : c.maintain.overflowed = false) : c.overflowed = false :=
  overflowed_of_foldl_hear (c := c.emptied) (sumsFit_heard hfit).1

theorem summed_heard (hfit : c.maintain.overflowed = false) :
    c.heard.summed = c.heard.policy := by
  rw [summed, (sumsFit_heard hfit).2, Admission.noteSum_false]

/-- The closing step of a pass leaves the window and the protected part alone. -/
theorem policy_maintain (h : c.policy.Sized c.maxCost) (hfit : c.maintain.overflowed = false) :
    ∃ probation, c.maintain.policy = { c.heard.policy with probation } := by
  obtain ⟨-, -, hprobation, -⟩ :=
    Admission.overflowed_eq_false_iff.1 (sumsFit_heard hfit).1
  have hpolicy := c.heard.policy_enforceBound
  rw [summed_heard hfit, (sized_heard h).evict_eq hprobation] at hpolicy
  rw [maintain_eq, hpolicy]
  exact ⟨_, rfl⟩

/-! ## Requests that make a pass -/

theorem get_frame (c : FrequencyCache V) (key : String) :
    ∃ reads hits misses, (c.get key).2 = { c with reads, hits, misses } := by
  unfold get
  cases c.resident[key]? <;> exact ⟨_, _, _, rfl⟩

/-- What a request does at once, before any pass. -/
def perform (c : FrequencyCache V) : LocalRequest V → FrequencyCache V
  | .get key => (c.get key).2
  | .set key value cost =>
    if c.maxCost < cost ∨ c.closed then c
    else { c with resident := c.resident.insert key ⟨value, cost⟩, writes := c.writes ++ [key] }
  | .delete key => c.delete key
  | .clear => c.clear
  | .close => c.close
  | .maintain => c

/-- Whether a request makes a pass: one for a pass, or a set that is taken and fills the buffer. -/
def MakesPass (c : FrequencyCache V) : LocalRequest V → Prop
  | .set _ _ cost => ¬ (c.maxCost < cost ∨ c.closed) ∧ c.bufferItems ≤ c.writes.length + 1
  | .maintain => True
  | _ => False

instance (c : FrequencyCache V) (r : LocalRequest V) : Decidable (c.MakesPass r) := by
  cases r <;> unfold MakesPass <;> infer_instance

theorem serve_eq (c : FrequencyCache V) (r : LocalRequest V) :
    c.serve r = if c.MakesPass r then (c.perform r).maintain else c.perform r := by
  cases r with
  | set key value cost =>
    by_cases href : c.maxCost < cost ∨ c.closed
    · simp [serve, set, MakesPass, perform, href]
    · simp [serve, set, MakesPass, perform, href]
  | get _ | delete _ | clear | close => rfl
  | maintain => rfl

theorem maxCost_perform (c : FrequencyCache V) (r : LocalRequest V) :
    (c.perform r).maxCost = c.maxCost := by
  cases r with
  | get key =>
    obtain ⟨reads, hits, misses, heq⟩ := c.get_frame key
    rw [perform, heq]
  | set key value cost =>
    unfold perform
    dsimp only
    split_ifs <;> rfl
  | delete _ | clear | close | maintain => rfl

theorem sized_perform (h : c.policy.Sized c.maxCost) (r : LocalRequest V) :
    (c.perform r).policy.Sized (c.perform r).maxCost := by
  rw [maxCost_perform]
  cases r with
  | get key =>
    obtain ⟨reads, hits, misses, heq⟩ := c.get_frame key
    rw [perform, heq]
    exact h
  | set key value cost =>
    unfold perform
    dsimp only
    split_ifs <;> exact h
  | delete key => exact h.remove key
  | clear | close => exact h.clear
  | maintain => exact h

theorem sized_serve (h : c.policy.Sized c.maxCost) (r : LocalRequest V) :
    (c.serve r).policy.Sized (c.serve r).maxCost := by
  have hp := sized_perform h r
  rw [serve_eq]
  split_ifs
  · rw [(maintain_trims _).maxCost_eq]
    exact sized_maintain hp
  · exact hp

theorem sized_of_run {rs : List (LocalRequest V)} (h : c.policy.Sized c.maxCost) :
    (c.run rs).policy.Sized (c.run rs).maxCost := by
  induction rs using List.reverseRecOn with
  | nil => exact h
  | append_singleton rs r ih =>
    rw [run_append_singleton]
    exact sized_serve ih r

theorem overflowed_of_perform {r : LocalRequest V} (h : (c.perform r).overflowed = false) :
    c.overflowed = false := by
  cases r with
  | get key =>
    obtain ⟨reads, hits, misses, heq⟩ := c.get_frame key
    rwa [perform, heq] at h
  | set key value cost =>
    unfold perform at h
    dsimp only at h
    split_ifs at h <;> exact h
  | delete key => exact (c.policy.overflowed_remove key).symm.trans h
  | clear | close | maintain => exact h

theorem overflowed_of_serve {r : LocalRequest V} (h : (c.serve r).overflowed = false) :
    c.overflowed = false := by
  rw [serve_eq] at h
  split_ifs at h
  · exact overflowed_of_perform (overflowed_of_maintain h)
  · exact overflowed_of_perform h

/-- What was noted in a run stays noted. -/
theorem overflowed_of_run {rs : List (LocalRequest V)} (h : (c.run rs).overflowed = false) :
    c.overflowed = false := by
  induction rs using List.reverseRecOn with
  | nil => exact h
  | append_singleton rs r ih =>
    rw [run_append_singleton] at h
    exact ih (overflowed_of_serve h)

theorem sized_run {chance : Chance} {config : LocalConfig} (h : new chance config = .ok c)
    (rs : List (LocalRequest V)) : (c.run rs).policy.Sized (c.run rs).maxCost := by
  apply sized_of_run
  obtain ⟨-, hcost, readCapacity, -, rfl⟩ := exists_eq_empty_of_new h
  exact Admission.sized_new chance.rowHash hcost config.numCounters

/-! ## Caches to try -/

/-- The configuration of a frequency cache with room for one key in the window, one on probation and
one with protection. -/
def threeEntries : LocalConfig := { numCounters := 100, maxCost := 3, bufferItems := 8 }

end FrequencyCache

end PodCache
