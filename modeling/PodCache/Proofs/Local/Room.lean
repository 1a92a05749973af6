import PodCache.Proofs.Local.Displacement

/-!
# Entries stay while there is room

When every entry costs one, the window and the main segment together have room for as many keys as
the bound allows.  So a window overflows only while the main segment still has room for what leaves
it, and no candidate has to compete (`Drains.eq_nil`).  As long as the resident keys are no more
than the bound at any moment of a run (`FrequencyCache.HasRoom`), the passes drop nothing, whatever
the sketch estimates and in whatever order the reads come (`entries_stay_while_there_is_room`).
-/

namespace PodCache

open RecencyList (without costSum costSum_nil costSum_cons costSum_append)

namespace Admission

variable {p q : Admission} {s : Segments} {key : String}

/-- What leaves an overflowing window finds room in the main segment, if they share the tracked
keys. -/
theorem Drains.eq_nil {dropped : List String} (hd : p.Drains dropped q) (h : p.Holds s)
    (hunit : ∀ e ∈ s.window, e.cost = 1) (hp : p.overflowed = false)
    (hroom : costSum s.all ≤ p.windowCapacity + p.mainCapacity)
    (hlt : costSum s.all < UInt64.size) : dropped = [] := by
  induction hd generalizing s with
  | fits _ => rfl
  | @accepts p q dropped e rest hover hpop _ _ ih =>
    obtain ⟨hsum, hw, hb, ht⟩ := overflowed_eq_false_iff.1 (h.overflowed_competing hpop hp hlt)
    obtain ⟨front, hfront, hs⟩ := h.acceptOldest hpop
    have hsame : costSum (Segments.mk front (e :: s.probation) s.protection).all =
        costSum s.all := by
      simp only [costSum_all, hfront, costSum_append, costSum_cons, costSum_nil]
      omega
    rw [← hsame] at hroom hlt
    refine ih hs ?_ (overflowed_eq_false_iff.2 ⟨hsum, hw, ?_, ht⟩) hroom hlt
    · intro d hd
      exact hunit d (by simp [hfront, hd])
    · simp only [costSum_all, costSum_cons] at hlt
      exact overflowed_pushFront_of_lt h.probation hb (by omega)
  | @rejects p q dropped e rest hover hpop ha _ _ =>
    obtain ⟨front, hfront, -⟩ := h.popWindow hpop
    have hone : e.cost = 1 := hunit e (by simp [hfront])
    obtain ⟨hwindow, hprobation, hprotection⟩ := h.totals hp
    rw [costSum_all] at hroom hlt
    rw [hwindow] at hover
    -- the window is over its share, so that the main segment is below its own
    have hmain : Word.add p.mainCost e.cost ≤ p.mainCapacity := by
      have hfits : costSum s.probation + costSum s.protection < UInt64.size := by omega
      refine (Word.add_le _ _).trans ?_
      rw [mainCost, hprobation, hprotection, Word.add_eq hfits]
      omega
    rw [Admission.accepts, if_pos hmain] at ha
    cases ha

/-- While there is room an offered key makes nothing give way. -/
theorem Holds.offer_fst_eq_nil (h : p.Holds s) (hunit : ∀ e ∈ s.all, e.cost = 1)
    (hp : p.overflowed = false)
    (hroom : costSum (⟨key, (), 1⟩ :: without s.all key) ≤ p.windowCapacity + p.mainCapacity)
    (hlt : costSum (⟨key, (), 1⟩ :: without s.all key) < UInt64.size) :
    (p.offer key 1).1 = [] := by
  obtain ⟨s', dropped, -, hd, hoffer⟩ := h.offer key 1
  cases hoffer with
  | isProtected _ _ | promoted _ _ => exact hd
  | windowed hb ht _ =>
    have hpushed := h.pushed 1 hb ht
    have hfit := h.overflowed_pushed hp (show 1 + costSum (without s.all key) < UInt64.size by
      rwa [costSum_cons] at hlt)
    rw [← all_pushed 1 hb ht] at hroom hlt
    rw [h.offer_eq_drainWindow 1 hb ht]
    refine hpushed.drains.eq_nil hpushed ?_ hfit hroom hlt
    intro e he
    rcases List.mem_cons.1 he with rfl | he
    · rfl
    · exact hunit e (Segments.mem_all.2 (.inl (RecencyList.mem_without.1 he).1))

end Admission

namespace FrequencyCache

variable {V : Type} {c : FrequencyCache V} {es : List (Entry Unit)} {pending : List String}
  {key : String} {rs : List (LocalRequest V)}

/-! ## Passes that drop nothing -/

/-- A moment at which the bound has room for everything resident, and everything costs one. -/
structure Roomy (c : FrequencyCache V) (pending : List String) : Prop where
  books : c.Books pending
  unit : c.UnitCosts
  sized : c.policy.Sized c.maxCost
  room : c.resident.size ≤ c.maxCost
  word : c.maxCost < UInt64.size
  fits : c.overflowed = false

/-- What the policy tracks are no more keys than the bound. -/
theorem Accounts.costSum_le (ha : Accounts es pending c.resident) (hes : ∀ e ∈ es, e.cost = 1)
    (hroom : c.resident.size ≤ c.maxCost) : costSum es ≤ c.maxCost := by
  rw [RecencyList.costSum_of_unit hes]
  exact ha.length_le.trans hroom

theorem Roomy.costSum_le (h : c.Roomy pending) (ht : c.policy.Tracks es)
    (ha : Accounts es pending c.resident) : costSum es ≤ c.maxCost := by
  apply ha.costSum_le _ h.room
  intro e he
  exact h.unit.tracked e.key e.cost (ht.cost?_eq_some_iff.2 he)

/-- A written key that is resident is offered without any other giving way. -/
theorem Roomy.offer {slot : Slot V} (h : c.Roomy (key :: pending))
    (hslot : c.resident[key]? = some slot) :
    (c.policy.offer key slot.cost).1 = [] ∧
      (c.policy.offer key slot.cost).2.overflowed = false := by
  have hone : slot.cost = 1 := h.unit.resident key slot hslot
  obtain ⟨es, ⟨s, hs, hes⟩, ha⟩ := h.books
  have hcosts := h.unit.entries hs
  have hcost : costSum (⟨key, (), 1⟩ :: without s.all key) ≤ c.maxCost := by
    have hbook := ha.book hslot
    have hperm : (without s.all key).Perm (without es key) := hes.filter _
    rw [hone] at hbook
    rw [RecencyList.costSum_perm (hperm.cons _)]
    apply hbook.costSum_le _ h.room
    intro e he
    rcases List.mem_cons.1 he with rfl | he
    · rfl
    · exact hcosts e (hes.mem_iff.2 (RecencyList.mem_without.1 he).1)
  have hlt := Nat.lt_of_le_of_lt hcost h.word
  rw [hone]
  refine ⟨hs.offer_fst_eq_nil hcosts h.fits (hcost.trans_eq h.sized.shared.symm) hlt, ?_⟩
  rw [costSum_cons] at hlt
  have ht : c.policy.Tracks s.all := ⟨s, hs, .refl _⟩
  exact ht.overflowed_offer h.fits hlt

/-- A written key is taken without any other giving way. -/
theorem Roomy.applyWrite (h : c.Roomy (key :: pending)) :
    ∃ policy, c.applyWrite key = { c with policy } ∧ (c.applyWrite key).Roomy pending := by
  have hbooks := h.books.applyWrite
  have hunit : (c.applyWrite key).UnitCosts := h.unit.hear h.sized (.write key)
  have hsized : (c.applyWrite key).policy.Sized c.maxCost := sized_hear h.sized (.write key)
  have heq : ∃ policy, c.applyWrite key = { c with policy } ∧ policy.overflowed = false := by
    unfold FrequencyCache.applyWrite
    cases hslot : c.resident[key]? with
    | none => exact ⟨c.policy, rfl, h.fits⟩
    | some slot =>
      obtain ⟨hnil, hfit⟩ := h.offer hslot
      dsimp only
      rw [hnil]
      exact ⟨_, rfl, hfit⟩
  obtain ⟨policy, heq, hfit⟩ := heq
  rw [heq] at hbooks hunit hsized ⊢
  exact ⟨policy, rfl, ⟨hbooks, hunit, hsized, h.room, h.word, hfit⟩⟩

theorem Roomy.applyWrites (keys : List String) (h : c.Roomy (keys ++ pending)) :
    ∃ policy, keys.foldl FrequencyCache.applyWrite c = { c with policy } ∧
      (keys.foldl FrequencyCache.applyWrite c).Roomy pending := by
  induction keys generalizing c with
  | nil => exact ⟨c.policy, rfl, h⟩
  | cons key keys ih =>
    obtain ⟨policy, heq, hnext⟩ := h.applyWrite
    obtain ⟨policy', heq', hend⟩ := ih hnext
    refine ⟨policy', ?_, hend⟩
    rw [List.foldl_cons, heq', heq]

/-- Reads change only the order in which keys were used. -/
theorem Roomy.applyReads (h : c.Roomy pending) (reads : List (String × Nat)) :
    Roomy { c with policy := reads.foldl applyRead c.policy } pending := by
  induction reads generalizing c with
  | nil => exact h
  | cons read reads ih =>
    refine ih (c := { c with policy := applyRead c.policy read }) ?_
    obtain ⟨es, ht, ha⟩ := h.books
    have hread := tracks_applyReads ht [read]
    have hunit : (c.hear (.read read.1 read.2)).UnitCosts := h.unit.hear h.sized _
    have hsized := sized_hear h.sized (.read read.1 read.2)
    refine ⟨⟨es, hread, ha⟩, hunit, hsized, h.room, h.word, ?_⟩
    unfold overflowed applyRead
    dsimp only
    split_ifs
    · exact ht.overflowed_recordReads h.fits (Nat.lt_of_le_of_lt (h.costSum_le ht ha) h.word) _ _
    · exact h.fits

/-- While there is room the bound takes nothing. -/
theorem Roomy.enforceBound (h : c.Roomy pending) : c.enforceBound = c := by
  obtain ⟨es, ht, ha⟩ := h.books
  have hle := h.costSum_le ht ha
  have hsums := ht.sumsFit h.fits (Nat.lt_of_le_of_lt hle h.word)
  have hsummed : c.policy.noteSum c.policy.totalOverflows = c.policy := by
    rw [hsums.2, Admission.noteSum_false]
  unfold FrequencyCache.enforceBound
  rw [hsummed]
  exact if_neg (Nat.not_lt.2 ((ht.totalCost hsums).trans_le hle))

/-- While there is room a pass drops nothing. -/
theorem Roomy.maintain (h : c.Roomy c.writes) :
    c.maintain.resident = c.resident ∧ c.maintain.evictions = c.evictions ∧
      c.maintain.overflowed = false := by
  have hbegin : c.emptied.Roomy (c.writes ++ []) := by
    rw [List.append_nil]
    exact ⟨h.books, ⟨h.unit.resident, h.unit.tracked⟩, h.sized, h.room, h.word, h.fits⟩
  have hreads := hbegin.applyReads ((c.shuffle c.passes).apply c.reads.drain.1)
  obtain ⟨policy, heq, hend⟩ := hreads.applyWrites c.writes
  change c.writes.foldl FrequencyCache.applyWrite { c.emptied with
    policy := ((c.shuffle c.passes).apply c.reads.drain.1).foldl applyRead c.policy } = _ at heq
  rw [← readsHeard_eq, ← heard_eq] at heq
  have hheard : c.heard.Roomy [] := by
    rw [heard_eq, readsHeard_eq]
    exact hend
  rw [maintain_eq, hheard.enforceBound]
  refine ⟨?_, ?_, hheard.fits⟩
  · rw [heq]
    rfl
  · rw [heq]
    rfl

/-! ## Runs -/

/-- Whether the resident keys are no more than the bound at every moment of a run, also when a set
has added its key and the pass that it makes is still to come. -/
def HasRoom : FrequencyCache V → List (LocalRequest V) → Prop
  | _, [] => True
  | c, r :: rs => (c.perform r).resident.size ≤ c.maxCost ∧ HasRoom (c.serve r) rs

instance decidableHasRoom :
    (c : FrequencyCache V) → (rs : List (LocalRequest V)) → Decidable (c.HasRoom rs)
  | _, [] => .isTrue trivial
  | c, r :: rs =>
    have := decidableHasRoom (c.serve r) rs
    inferInstanceAs (Decidable (_ ∧ _))

theorem hasRoom_append_singleton {r : LocalRequest V} :
    c.HasRoom (rs ++ [r]) ↔
      c.HasRoom rs ∧ ((c.run rs).perform r).resident.size ≤ (c.run rs).maxCost := by
  induction rs generalizing c with
  | nil => simp [HasRoom, run]
  | cons r' rs ih =>
    rw [List.cons_append, HasRoom, HasRoom, ih, and_assoc]
    rfl

theorem roomy_perform {chance : Chance} {config : LocalConfig} (h : new chance config = .ok c)
    {r : LocalRequest V} (hsets : ∀ key value cost, .set key value cost ∈ rs ++ [r] → cost = 1)
    (hroom : c.HasRoom (rs ++ [r])) (hfit : (c.run rs).overflowed = false) :
    ((c.run rs).perform r).Roomy ((c.run rs).perform r).writes := by
  obtain ⟨hunit, -⟩ := unitCosts_run h
    (fun key value cost hm => hsets key value cost (List.mem_append_left _ hm)) hfit
  have hsized := sized_run h rs
  have hperformed : ((c.run rs).perform r).UnitCosts :=
    hunit.perform hsized fun key value cost heq => hsets key value cost (by simp [heq])
  refine ⟨(balanced_run h rs).books_perform r, hperformed, sized_perform hsized r, ?_, ?_,
    overflowed_perform hfit r⟩
  · rw [maxCost_perform]
    exact (hasRoom_append_singleton.1 hroom).2
  · rw [maxCost_perform, (balanced_run h rs).maxCost_eq]
    exact config.maxCost.toNat_lt

/-- While there is room no sum is too great. -/
theorem overflowed_run_of_room {chance : Chance} {config : LocalConfig}
    (h : new chance config = .ok c)
    (hsets : ∀ key value cost, .set key value cost ∈ rs → cost = 1) (hroom : c.HasRoom rs) :
    (c.run rs).overflowed = false := by
  induction rs using List.reverseRecOn with
  | nil => exact overflowed_new h
  | append_singleton rs r ih =>
    have hfit := ih (fun key value cost hm => hsets key value cost (List.mem_append_left _ hm))
      (hasRoom_append_singleton.1 hroom).1
    rw [run_append_singleton, serve_eq]
    split_ifs
    · exact (roomy_perform h hsets hroom hfit).maintain.2.2
    · exact overflowed_perform hfit r

/-- While there is room a request does no more than what it does at once. -/
theorem serve_of_room {chance : Chance} {config : LocalConfig} (h : new chance config = .ok c)
    {r : LocalRequest V} (hsets : ∀ key value cost, .set key value cost ∈ rs ++ [r] → cost = 1)
    (hroom : c.HasRoom (rs ++ [r])) :
    ((c.run rs).serve r).contents = ((c.run rs).perform r).contents ∧
      ((c.run rs).serve r).evictions = (c.run rs).evictions := by
  have hperform : ((c.run rs).perform r).evictions = (c.run rs).evictions := by
    cases r with
    | get key =>
      obtain ⟨reads, hits, misses, heq⟩ := (c.run rs).get_frame key
      rw [perform, heq]
    | set key value cost =>
      unfold perform
      dsimp only
      split_ifs <;> rfl
    | delete _ | clear | close | maintain => rfl
  have hfit : (c.run rs).overflowed = false := overflowed_run_of_room h
    (fun key value cost hm => hsets key value cost (List.mem_append_left _ hm))
    (hasRoom_append_singleton.1 hroom).1
  rw [serve_eq]
  split_ifs
  · obtain ⟨hresident, hevictions, -⟩ := (roomy_perform h hsets hroom hfit).maintain
    refine ⟨?_, hevictions.trans hperform⟩
    funext k
    rw [contents_apply, contents_apply, hresident]
  · exact ⟨rfl, hperform⟩

/-- What a request that neither sets nor removes a key does at once leaves its value alone. -/
theorem contents_perform_of_spares {r : LocalRequest V} (h : r.Spares key) :
    (c.perform r).contents key = c.contents key := by
  cases r with
  | get k => rw [perform, contents_get]
  | set k value cost =>
    unfold perform
    dsimp only
    split_ifs
    · rfl
    · rw [contents_eq_of_insert c k ⟨value, cost⟩ rfl, Contents.put_of_ne _ _ h]
  | delete k => rw [perform, contents_delete, Contents.erase_of_ne _ h]
  | clear | close => exact h.elim
  | maintain => rfl

theorem closed_serve {r : LocalRequest V} (hr : r ≠ .close) : (c.serve r).closed = c.closed := by
  have hperform : (c.perform r).closed = c.closed := by
    cases r with
    | get key =>
      obtain ⟨reads, hits, misses, heq⟩ := c.get_frame key
      rw [perform, heq]
    | set key value cost =>
      unfold perform
      dsimp only
      split_ifs <;> rfl
    | delete _ | clear | maintain => rfl
    | close => exact absurd rfl hr
  rw [serve_eq]
  split_ifs
  · exact (maintain_forgets _).closed_eq.trans hperform
  · exact hperform

theorem closed_run {chance : Chance} {config : LocalConfig} (h : new chance config = .ok c)
    (hopen : .close ∉ rs) : (c.run rs).closed = false := by
  induction rs using List.reverseRecOn with
  | nil =>
    obtain ⟨-, -, readCapacity, -, rfl⟩ := exists_eq_empty_of_new h
    rfl
  | append_singleton rs r ih =>
    rw [List.mem_append, not_or, List.mem_singleton] at hopen
    rw [run_append_singleton, closed_serve (Ne.symm hopen.2)]
    exact ih hopen.1

/-- A cache that is open takes what costs one. -/
theorem contents_perform_set {value : V} (hsized : c.policy.Sized c.maxCost)
    (hopen : c.closed = false) :
    (c.perform (.set key value 1)).contents = c.contents.put key value := by
  have htaken : ¬ (c.maxCost < 1 ∨ c.closed = true) := by
    have hshared := hsized.shared
    have hroom := hsized.room
    simp only [hopen, Bool.false_eq_true, or_false]
    omega
  unfold perform
  dsimp only
  rw [if_neg htaken]
  exact contents_eq_of_insert c key ⟨value, 1⟩ rfl

/-- As long as the resident keys of an open cache whose sets all cost one are no more than the
bound, nothing is evicted, and a key that was set and neither set again nor removed since still has
its value. -/
theorem entries_stay_while_there_is_room {chance : Chance} {config : LocalConfig}
    (h : new chance config = .ok c) (rs : List (LocalRequest V))
    (hsets : ∀ key value cost, .set key value cost ∈ rs → cost = 1)
    (hopen : .close ∉ rs) (hroom : c.HasRoom rs) :
    (c.run rs).evictions = 0 ∧
      ∀ earlier key value cost later, rs = earlier ++ .set key value cost :: later →
        (∀ r ∈ later, r.Spares key) → (c.run rs).contents key = some value := by
  induction rs using List.reverseRecOn with
  | nil =>
    refine ⟨?_, fun earlier key value cost later hrs => by simp at hrs⟩
    obtain ⟨-, -, readCapacity, -, rfl⟩ := exists_eq_empty_of_new h
    rfl
  | append_singleton rs r ih =>
    obtain ⟨hcontents, hevictions⟩ := serve_of_room h hsets hroom
    rw [List.mem_append, not_or] at hopen
    obtain ⟨hnone, hkept⟩ := ih
      (fun key value cost hm => hsets key value cost (List.mem_append_left _ hm)) hopen.1
      (hasRoom_append_singleton.1 hroom).1
    rw [run_append_singleton]
    refine ⟨hevictions.trans hnone, fun earlier key value cost later hrs hlater => ?_⟩
    rw [hcontents]
    rcases List.eq_nil_or_concat' later with rfl | ⟨later, r', rfl⟩
    · obtain ⟨rfl, hr⟩ := List.append_inj' hrs rfl
      obtain rfl := List.singleton_inj.1 hr
      obtain rfl : cost = 1 := hsets key value cost (by simp)
      rw [contents_perform_set (sized_run h rs) (closed_run h hopen.1), Contents.put_self]
    · rw [← List.cons_append, ← List.append_assoc] at hrs
      obtain ⟨hsplit, hr⟩ := List.append_inj' hrs rfl
      obtain rfl := List.singleton_inj.1 hr
      rw [contents_perform_of_spares (hlater r (by simp))]
      exact hkept earlier key value cost later hsplit fun r' hr' => hlater r' (by simp [hr'])

/-- A cache that is filled up to its bound keeps a key that was never read, next to one that was. -/
theorem full_cache_keeps_entries :
    ∃ c : FrequencyCache Nat, new charChance threeEntries = .ok c ∧
      let rs : List (LocalRequest Nat) := [.set "a" 1 1, .set "b" 2 1, .maintain, .get "b",
        .delete "b", .set "c" 3 1, .maintain, .set "d" 4 1, .maintain]
      (c.run rs).resident.size = 3 ∧ (c.run rs).evictions = 0 ∧
        (c.run rs).contents "a" = some 1 := by
  refine ⟨_, rfl, ?_⟩
  intro rs
  have hstay := entries_stay_while_there_is_room
    (show new (V := Nat) charChance threeEntries = .ok _ from rfl) rs
    (by simp [rs]; omega) (by simp [rs]) (by decide +kernel)
  obtain ⟨hnone, hkept⟩ := hstay
  refine ⟨by decide +kernel, hnone, hkept [] "a" 1 1 _ rfl ?_⟩
  simp [LocalRequest.Spares]

end FrequencyCache

end PodCache
