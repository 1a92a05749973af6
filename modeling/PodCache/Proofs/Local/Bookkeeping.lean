import PodCache.Proofs.Local.Freshness
import PodCache.Proofs.Local.Sums

/-!
# The books of frequency caches

The policy of a frequency cache hears of a write in the next maintenance pass.  Between two requests
the books are kept all the same (`FrequencyCache.Books`): what the policy tracks is resident, and
what is resident is tracked with its cost or waits for the next pass.  As the policy keeps the bound
and few writes wait, the cost of the resident entries is bounded as well, and right after a pass by
the bound itself (`books_of_run`).  The bound is about costs whose sums are words.  They are in every
run whose sets together cost less than a word can tell (`overflowed_run_of_writtenCost`).
-/

namespace PodCache

open RecencyList (without costSum)

namespace FrequencyCache

variable {V : Type} {c : FrequencyCache V} {es : List (Entry Unit)} {pending : List String}

/-! ## Dropping entries -/

theorem resident_evictKey (c : FrequencyCache V) (key k : String) :
    (c.evictKey key).resident[k]? = if key = k then none else c.resident[k]? := by
  unfold evictKey
  split_ifs with hc hk hk
  · simp [hk]
  · rw [Std.TreeMap.getElem?_erase, if_neg (mt Std.compare_eq_iff_eq.1 hk)]
  · subst hk
    exact Std.TreeMap.getElem?_eq_none (by simpa using hc)
  · rfl

theorem policy_evictKeys (c : FrequencyCache V) (keys : List String) :
    (keys.foldl evictKey c).policy = c.policy := by
  induction keys generalizing c with
  | nil => rfl
  | cons key keys ih =>
    refine (ih _).trans ?_
    unfold evictKey
    split_ifs <;> rfl

theorem resident_evictKeys (c : FrequencyCache V) (keys : List String) (k : String) :
    (keys.foldl evictKey c).resident[k]? = if k ∈ keys then none else c.resident[k]? := by
  induction keys generalizing c with
  | nil => simp
  | cons key keys ih =>
    rw [List.foldl_cons, ih, resident_evictKey]
    by_cases hk : key = k
    · simp [hk]
    · simp [hk, Ne.symm hk]

/-! ## Accounts of the resident entries -/

/-- Entries account for resident ones: each of them is resident, and what is resident is among them
with its cost, unless its key is pending. -/
structure Accounts (es : List (Entry Unit)) (pending : List String)
    (resident : Std.TreeMap String (Slot V)) : Prop where
  nodup : (es.map Entry.key).Nodup
  found : ∀ e ∈ es, ∃ slot : Slot V, resident[e.key]? = some slot
  booked : ∀ (key : String) (slot : Slot V), resident[key]? = some slot →
    key ∈ pending ∨ ⟨key, (), slot.cost⟩ ∈ es

section Accounts

variable {resident : Std.TreeMap String (Slot V)} {key : String} {slot : Slot V}

theorem accounts_empty : Accounts [] [] (∅ : Std.TreeMap String (Slot V)) :=
  ⟨List.nodup_nil, nofun, fun key slot hs => by simp at hs⟩

theorem Accounts.insert (h : Accounts es pending resident) (key : String) (slot : Slot V) :
    Accounts es (pending ++ [key]) (resident.insert key slot) := by
  refine ⟨h.nodup, fun e he => ?_, fun k slot' hs => ?_⟩
  · rw [Std.TreeMap.getElem?_insert]
    split_ifs
    · exact ⟨slot, rfl⟩
    · exact h.found e he
  · rw [Std.TreeMap.getElem?_insert] at hs
    split_ifs at hs with hk
    · exact .inl (by simp [Std.compare_eq_iff_eq.1 hk])
    · exact (h.booked k slot' hs).imp_left (List.mem_append_left _)

theorem Accounts.erase (h : Accounts es pending resident) (key : String) :
    Accounts (without es key) pending (resident.erase key) := by
  refine ⟨h.nodup.sublist (List.filter_sublist.map _), fun e he => ?_, fun k slot' hs => ?_⟩
  · obtain ⟨he, hk⟩ := RecencyList.mem_without.1 he
    rw [Std.TreeMap.getElem?_erase, if_neg (mt Std.compare_eq_iff_eq.1 (Ne.symm hk))]
    exact h.found e he
  · rw [Std.TreeMap.getElem?_erase] at hs
    split_ifs at hs with hk
    have hne : k ≠ key := fun heq => hk (Std.compare_eq_iff_eq.2 heq.symm)
    exact (h.booked k slot' hs).imp_right fun he => RecencyList.mem_without.2 ⟨he, hne⟩

/-- A pending key that is resident is booked with its cost. -/
theorem Accounts.book (h : Accounts es (key :: pending) resident)
    (hslot : resident[key]? = some slot) :
    Accounts (⟨key, (), slot.cost⟩ :: without es key) pending resident := by
  refine ⟨Admission.nodup_cons_without h.nodup key () slot.cost, fun e he => ?_,
    fun k slot' hs => ?_⟩
  · rcases List.mem_cons.1 he with rfl | he
    · exact ⟨slot, hslot⟩
    · exact h.found e (RecencyList.mem_without.1 he).1
  · by_cases hk : k = key
    · subst hk
      obtain rfl : slot = slot' := Option.some.inj (hslot.symm.trans hs)
      exact .inr List.mem_cons_self
    · rcases h.booked k slot' hs with hp | he
      · exact .inl (List.mem_of_ne_of_mem hk hp)
      · exact .inr (List.mem_cons_of_mem _ (RecencyList.mem_without.2 ⟨he, hk⟩))

/-- A pending key that is no longer resident needs no entry. -/
theorem Accounts.skip (h : Accounts es (key :: pending) resident)
    (hslot : resident[key]? = none) : Accounts es pending resident := by
  refine ⟨h.nodup, h.found, fun k slot' hs => (h.booked k slot' hs).imp_left fun hp => ?_⟩
  have hne : k ≠ key := by
    rintro rfl
    rw [hslot] at hs
    cases hs
  exact List.mem_of_ne_of_mem hne hp

/-- Entries that are given up are dropped. -/
theorem Accounts.giveUp {kept dropped : List (Entry Unit)}
    {left : Std.TreeMap String (Slot V)} (h : Accounts es pending resident)
    (hes : (kept ++ dropped).Perm es)
    (hleft : ∀ k, left[k]? = if k ∈ dropped.map Entry.key then none else resident[k]?) :
    Accounts kept pending left := by
  have hn := Admission.nodup_of_perm hes h.nodup
  rw [List.map_append, List.nodup_append'] at hn
  obtain ⟨hk, -, hdisj⟩ := hn
  refine ⟨hk, fun e he => ?_, fun k slot' hs => ?_⟩
  · rw [hleft, if_neg (hdisj (List.mem_map_of_mem he))]
    exact h.found e (hes.mem_iff.1 (List.mem_append_left _ he))
  · rw [hleft] at hs
    split_ifs at hs with hd
    refine (h.booked k slot' hs).imp_right fun he => ?_
    rcases List.mem_append.1 (hes.mem_iff.2 he) with he | he
    · exact he
    · exact absurd (List.mem_map.2 ⟨_, he, rfl⟩) hd

/-- There are no more entries than resident keys. -/
theorem Accounts.length_le (h : Accounts es pending resident) : es.length ≤ resident.size := by
  have hsub : es.map Entry.key ⊆ resident.keys := by
    intro k hk
    obtain ⟨e, he, rfl⟩ := List.mem_map.1 hk
    obtain ⟨slot, hs⟩ := h.found e he
    rw [Std.TreeMap.mem_keys, ← Std.TreeMap.contains_iff_mem,
      Std.TreeMap.contains_eq_isSome_getElem?, hs]
    rfl
  have hlen := (List.subperm_of_subset h.nodup hsub).length_le
  rwa [List.length_map, Std.TreeMap.length_keys] at hlen

/-- Without pending keys the entries are the resident ones. -/
theorem Accounts.mem_iff (h : Accounts es [] resident) {cost : Nat} :
    (⟨key, (), cost⟩ : Entry Unit) ∈ es ↔ resident[key]?.map Slot.cost = some cost := by
  have hbooked {slot : Slot V} (hs : resident[key]? = some slot) :
      (⟨key, (), slot.cost⟩ : Entry Unit) ∈ es :=
    (h.booked key slot hs).resolve_left List.not_mem_nil
  constructor
  · intro he
    obtain ⟨slot, hs⟩ := h.found _ he
    have heq := List.inj_on_of_nodup_map h.nodup he (hbooked hs) rfl
    rw [hs, Option.map_some, (Entry.mk.inj heq).2.2]
  · intro hcost
    obtain ⟨slot, hs, rfl⟩ := Option.map_eq_some_iff.1 hcost
    exact hbooked hs

end Accounts

/-! ## The books -/

/-- The policy accounts for the resident entries, but for pending keys. -/
def Books (c : FrequencyCache V) (pending : List String) : Prop :=
  ∃ es, c.policy.Tracks es ∧ Accounts es pending c.resident

theorem tracks_applyReads {p : Admission} (h : p.Tracks es) (reads : List (String × Nat)) :
    (reads.foldl applyRead p).Tracks es := by
  induction reads generalizing p with
  | nil => exact h
  | cons read reads ih =>
    refine ih ?_
    unfold applyRead
    split_ifs
    · exact h.recordReads read.1 read.2
    · exact h

theorem books_evictKeys {p : Admission} {kept dropped : List (Entry Unit)}
    (ha : Accounts es pending c.resident) (ht : p.Tracks kept)
    (hperm : (kept ++ dropped).Perm es) :
    ((dropped.map Entry.key).foldl evictKey { c with policy := p }).Books pending := by
  refine ⟨kept, ?_, ha.giveUp hperm (resident_evictKeys _ _)⟩
  rw [policy_evictKeys]
  exact ht

theorem Books.applyWrite {key : String} (h : c.Books (key :: pending)) :
    (c.applyWrite key).Books pending := by
  obtain ⟨es, ht, ha⟩ := h
  unfold FrequencyCache.applyWrite
  cases hslot : c.resident[key]? with
  | none => exact ⟨es, ht, ha.skip hslot⟩
  | some slot =>
    obtain ⟨kept, dropped, hkept, hd, hperm⟩ := ht.offer key slot.cost
    have hb := books_evictKeys (ha.book hslot) hkept hperm
    rw [← hd] at hb
    exact hb

theorem Books.applyWrites (keys : List String) (h : c.Books (keys ++ pending)) :
    (keys.foldl FrequencyCache.applyWrite c).Books pending := by
  induction keys generalizing c with
  | nil => exact h
  | cons key keys ih => exact ih h.applyWrite

/-- The policy when the cost of all tracked keys has been asked for. -/
def summed (c : FrequencyCache V) : Admission := c.policy.noteSum c.policy.totalOverflows

/-- Without excess there are no victims. -/
theorem enforceBound_eq (c : FrequencyCache V) :
    c.enforceBound =
      ((c.summed.evict (c.summed.totalCost - c.maxCost)).1.map Entry.key).foldl evictKey
        { c with policy := (c.summed.evict (c.summed.totalCost - c.maxCost)).2 } := by
  unfold enforceBound
  dsimp only
  rw [← summed]
  split_ifs with hover
  · rw [List.foldl_map]
  · rw [Nat.sub_eq_zero_of_le (Nat.le_of_not_lt hover), Admission.evict_zero]
    rfl

theorem policy_enforceBound (c : FrequencyCache V) :
    c.enforceBound.policy = (c.summed.evict (c.summed.totalCost - c.maxCost)).2 := by
  rw [enforceBound_eq, policy_evictKeys]

theorem Books.enforceBound (h : c.Books pending) : c.enforceBound.Books pending := by
  obtain ⟨es, ht, ha⟩ := h
  have hn : c.summed.Tracks es := ht.noteSum c.policy.totalOverflows
  obtain ⟨kept, hkept, hperm, -⟩ := hn.evict (c.summed.totalCost - c.maxCost)
  rw [enforceBound_eq]
  exact books_evictKeys ha hkept hperm

/-- The bound is kept when no sum of costs was too great. -/
theorem Books.enforceBound_le (h : c.Books pending) (hfit : c.enforceBound.overflowed = false)
    (hm : c.maxCost < UInt64.size) :
    c.enforceBound.policy.SumsFit ∧ c.enforceBound.policy.totalCost ≤ c.maxCost := by
  obtain ⟨es, ht, -⟩ := h
  rw [overflowed, policy_enforceBound] at hfit
  rw [policy_enforceBound]
  have hsums : c.policy.SumsFit :=
    Admission.overflowed_noteSum_total_eq_false_iff.1 (Admission.overflowed_of_evict hfit)
  have htotal : c.summed.totalCost = costSum es := ht.totalCost hsums
  have hn : c.summed.Tracks es := ht.noteSum c.policy.totalOverflows
  obtain ⟨kept, hkept, hperm, henough⟩ := hn.evict (c.summed.totalCost - c.maxCost)
  have hle : costSum kept ≤ c.maxCost := by
    rcases henough (ht.costSum_lt hsums) with hfreed | rfl
    · have hsum := RecencyList.costSum_perm hperm
      rw [RecencyList.costSum_append, ← htotal] at hsum
      omega
    · exact Nat.zero_le _
  have hlt := Nat.lt_of_le_of_lt hle hm
  exact ⟨hkept.sumsFit hfit hlt, (hkept.totalCost_of_lt hfit hlt).trans_le hle⟩

/-- A pass leaves nothing pending and keeps the bound. -/
theorem Books.maintain (h : c.Books c.writes) (hm : c.maxCost < UInt64.size) :
    c.maintain.Books [] ∧ (c.maintain.overflowed = false →
      c.maintain.policy.SumsFit ∧ c.maintain.policy.totalCost ≤ c.maxCost) := by
  obtain ⟨es, ht, ha⟩ := h
  have emptied : Books { c with
      reads := c.reads.drain.2
      policy := ((c.shuffle c.passes).apply c.reads.drain.1).foldl applyRead c.policy
      writes := []
      passes := c.passes + 1 } (c.writes ++ []) := by
    rw [List.append_nil]
    exact ⟨es, tracks_applyReads ht _, ha⟩
  have hwrites := emptied.applyWrites c.writes
  -- the writes change no more than the residents, the policy and the evictions, so the bound stands
  obtain ⟨resident, policy, evictions, heq⟩ := (Trims.foldl applyWrite_trims c.writes { c with
      reads := c.reads.drain.2
      policy := ((c.shuffle c.passes).apply c.reads.drain.1).foldl applyRead c.policy
      writes := []
      passes := c.passes + 1 }).frame
  refine ⟨hwrites.enforceBound, fun hfit => ?_⟩
  obtain ⟨hsums, hle⟩ := hwrites.enforceBound_le hfit (by rw [heq]; exact hm)
  exact ⟨hsums, hle.trans_eq (by rw [heq])⟩

/-! ## The cost of the resident entries -/

/-- The resident keys with their costs. -/
def entries (c : FrequencyCache V) : List (Entry Unit) :=
  c.resident.toList.map fun kv => ⟨kv.1, (), kv.2.cost⟩

/-- The sum of the costs of the resident entries. -/
def residentCost (c : FrequencyCache V) : Nat := costSum c.entries

theorem mem_entries_iff {e : Entry Unit} :
    e ∈ c.entries ↔ c.resident[e.key]?.map Slot.cost = some e.cost := by
  rw [entries, List.mem_map, Option.map_eq_some_iff]
  constructor
  · rintro ⟨⟨key, slot⟩, hm, rfl⟩
    exact ⟨slot, Std.TreeMap.mem_toList_iff_getElem?_eq_some.1 hm, rfl⟩
  · rintro ⟨slot, hs, hc⟩
    refine ⟨(e.key, slot), Std.TreeMap.mem_toList_iff_getElem?_eq_some.2 hs, ?_⟩
    rw [hc]

theorem nodup_entries (c : FrequencyCache V) : (c.entries.map Entry.key).Nodup := by
  rw [entries, List.map_map, List.Nodup, List.pairwise_map]
  refine Std.TreeMap.distinct_keys_toList.imp fun {a b} hab => ?_
  rwa [Std.compare_eq_iff_eq] at hab

theorem costSum_le {ds : List (Entry Unit)} {bound : Nat} (h : ∀ d ∈ ds, d.cost ≤ bound) :
    costSum ds ≤ ds.length * bound := by
  induction ds with
  | nil => exact Nat.zero_le _
  | cons d ds ih =>
    rw [List.forall_mem_cons] at h
    rw [RecencyList.costSum_cons, List.length_cons, Nat.succ_mul, Nat.add_comm]
    exact Nat.add_le_add (ih h.2) h.1

/-- Entries that are among others, but for those with pending keys, cost at most what the others and
the pending keys do. -/
theorem costSum_le_of_accounted {ds : List (Entry Unit)} {bound : Nat}
    (hn : (ds.map Entry.key).Nodup) (h : ∀ d ∈ ds, d.key ∈ pending ∨ d ∈ es)
    (hb : ∀ d ∈ ds, d.cost ≤ bound) : costSum ds ≤ costSum es + pending.length * bound := by
  -- what waits is counted by the pending keys, and the rest is among the others
  set waits := ds.filter fun d => d.key ∈ pending
  set rest := ds.filter fun d => d.key ∉ pending
  have hsplit : costSum ds = costSum rest + costSum waits := by
    have hperm : (waits ++ rest).Perm ds := by
      have := List.filter_append_perm (fun d : Entry Unit => decide (d.key ∈ pending)) ds
      simpa [waits, rest] using this
    rw [← RecencyList.costSum_perm hperm, RecencyList.costSum_append, add_comm]
  have hrest : costSum rest ≤ costSum es := by
    have hsub : rest ⊆ es := fun d hd => by
      obtain ⟨hd, hp⟩ := List.mem_filter.1 hd
      exact (h d hd).resolve_left (of_decide_eq_true hp)
    have hnr : rest.Nodup := (hn.of_map _).filter _
    obtain ⟨es', hperm, hsubl⟩ := List.subperm_of_subset hnr hsub
    rw [← RecencyList.costSum_perm hperm]
    exact RecencyList.costSum_le_of_sublist hsubl
  have hwaits : waits.length ≤ pending.length := by
    have hsub : waits.map Entry.key ⊆ pending := fun k hk => by
      obtain ⟨d, hd, rfl⟩ := List.mem_map.1 hk
      exact of_decide_eq_true (List.mem_filter.1 hd).2
    have hnw : (waits.map Entry.key).Nodup := hn.sublist (List.filter_sublist.map _)
    simpa using (List.subperm_of_subset hnw hsub).length_le
  have hcost : costSum waits ≤ waits.length * bound :=
    costSum_le fun d hd => hb d (List.mem_filter.1 hd).1
  have hmul := Nat.mul_le_mul_right bound hwaits
  omega

theorem Books.residentCost_le {bound : Nat} (h : c.Books pending) (hp : c.policy.SumsFit)
    (hb : ∀ (key : String) (slot : Slot V), c.resident[key]? = some slot → slot.cost ≤ bound) :
    c.residentCost ≤ c.policy.totalCost + pending.length * bound := by
  obtain ⟨es, ht, ha⟩ := h
  rw [ht.totalCost hp]
  refine costSum_le_of_accounted c.nodup_entries (fun e he => ?_) fun e he => ?_
  · obtain ⟨slot, hs, hc⟩ := Option.map_eq_some_iff.1 (mem_entries_iff.1 he)
    have hbooked := ha.booked e.key slot hs
    rwa [hc] at hbooked
  · obtain ⟨slot, hs, hc⟩ := Option.map_eq_some_iff.1 (mem_entries_iff.1 he)
    exact hc ▸ hb e.key slot hs

theorem residentCost_of_unit
    (h : ∀ (key : String) (slot : Slot V), c.resident[key]? = some slot → slot.cost = 1) :
    c.residentCost = c.resident.size := by
  have hone : ∀ e ∈ c.entries, e.cost = 1 := by
    intro e he
    obtain ⟨slot, hs, hc⟩ := Option.map_eq_some_iff.1 (mem_entries_iff.1 he)
    exact hc ▸ h e.key slot hs
  rw [residentCost, RecencyList.costSum_of_unit hone]
  simp [entries]

/-! ## Runs -/

/-- The cache after a request. -/
def serve (c : FrequencyCache V) : LocalRequest V → FrequencyCache V
  | .get key => (c.get key).2
  | .set key value cost => (c.set key value cost).2
  | .delete key => c.delete key
  | .clear => c.clear
  | .close => c.close
  | .maintain => c.maintain

/-- The cache after a sequence of requests. -/
def run (c : FrequencyCache V) (requests : List (LocalRequest V)) : FrequencyCache V :=
  requests.foldl serve c

theorem run_append_singleton (c : FrequencyCache V) (rs : List (LocalRequest V))
    (r : LocalRequest V) : c.run (rs ++ [r]) = (c.run rs).serve r := by
  simp [run]

/-- A frequency cache among the local caches serves requests alike. -/
theorem run_frequency (c : FrequencyCache V) (rs : List (LocalRequest V)) :
    (LocalCache.frequency c).run rs = .frequency (c.run rs) := by
  induction rs using List.reverseRecOn with
  | nil => rfl
  | append_singleton rs r ih =>
    rw [LocalCache.run_append_singleton, ih, run_append_singleton]
    cases r <;> rfl

/-- What holds of a cache between two requests. -/
structure Balanced (config : LocalConfig) (c : FrequencyCache V) : Prop where
  maxCost_eq : c.maxCost = config.maxCost.toNat
  bufferItems_eq : c.bufferItems = max 1 config.bufferItems.toNat
  books : c.Books c.writes
  bounded : c.overflowed = false → c.policy.SumsFit ∧ c.policy.totalCost ≤ c.maxCost
  few : c.writes.length < c.bufferItems

/-- A pass settles the books, however many writes wait. -/
theorem Books.balanced_maintain {config : LocalConfig} (h : c.Books c.writes)
    (hm : c.maxCost = config.maxCost.toNat)
    (hb : c.bufferItems = max 1 config.bufferItems.toNat) :
    c.maintain.Balanced config ∧ c.maintain.writes = [] := by
  obtain ⟨books, bounded⟩ := h.maintain (hm.trans_lt config.maxCost.toNat_lt)
  obtain ⟨resident, policy, evictions, heq⟩ := (maintain_trims c).frame
  have hw : c.maintain.writes = [] := by rw [heq]
  have hmax : c.maintain.maxCost = c.maxCost := by rw [heq]
  have hbuf : c.maintain.bufferItems = c.bufferItems := by rw [heq]
  refine ⟨⟨hmax.trans hm, hbuf.trans hb, ?_, ?_, ?_⟩, hw⟩
  · rwa [hw]
  · rwa [hmax]
  · rw [hw, hbuf, hb]
    exact Nat.lt_of_lt_of_le Nat.zero_lt_one (Nat.le_max_left _ _)

theorem balanced_new {chance : Chance} {config : LocalConfig} (h : new chance config = .ok c) :
    c.Balanced config := by
  obtain ⟨-, -, readCapacity, -, rfl⟩ := exists_eq_empty_of_new h
  have hb := Sizing.toNat_max_one config.bufferItems
  have ht := Admission.tracks_new chance.rowHash config.maxCost config.numCounters
  have hsums : (Admission.new chance.rowHash config.maxCost config.numCounters).SumsFit :=
    ht.sumsFit rfl (by decide)
  refine ⟨rfl, hb, ⟨[], ht, accounts_empty⟩,
    fun _ => ⟨hsums, (ht.totalCost hsums).trans_le (Nat.zero_le _)⟩, ?_⟩
  exact Nat.lt_of_lt_of_le Nat.zero_lt_one ((Nat.le_max_left _ _).trans_eq hb.symm)

theorem Balanced.clear {config : LocalConfig} (h : c.Balanced config) :
    c.clear.Balanced config := by
  have hp := Admission.tracks_clear c.policy
  refine ⟨h.maxCost_eq, h.bufferItems_eq, ⟨[], hp, accounts_empty⟩, fun hfit => ?_, ?_⟩
  · have hsums := hp.sumsFit hfit (by decide)
    exact ⟨hsums, (hp.totalCost hsums).trans_le (Nat.zero_le _)⟩
  · exact Nat.lt_of_le_of_lt (Nat.zero_le _) h.few

theorem Balanced.get {config : LocalConfig} (h : c.Balanced config) (key : String) :
    (c.get key).2.Balanced config := by
  unfold FrequencyCache.get
  cases c.resident[key]? <;> exact ⟨h.maxCost_eq, h.bufferItems_eq, h.books, h.bounded, h.few⟩

theorem Balanced.set {config : LocalConfig} (h : c.Balanced config) (key : String) (value : V)
    (cost : Nat) : (c.set key value cost).2.Balanced config := by
  unfold FrequencyCache.set
  split_ifs with href
  · exact h
  · obtain ⟨es, ht, ha⟩ := h.books
    have hb : Books { c with
        resident := c.resident.insert key ⟨value, cost⟩
        writes := c.writes ++ [key] } (c.writes ++ [key]) := ⟨es, ht, ha.insert key ⟨value, cost⟩⟩
    dsimp only
    split_ifs with hfull
    · exact (hb.balanced_maintain h.maxCost_eq h.bufferItems_eq).1
    · exact ⟨h.maxCost_eq, h.bufferItems_eq, hb, h.bounded, Nat.lt_of_not_le hfull⟩

theorem Balanced.delete {config : LocalConfig} (h : c.Balanced config) (key : String) :
    (c.delete key).Balanced config := by
  obtain ⟨es, ht, ha⟩ := h.books
  refine ⟨h.maxCost_eq, h.bufferItems_eq, ⟨_, ht.remove key, ha.erase key⟩, fun hfit => ?_, h.few⟩
  obtain ⟨hsums, hbound⟩ := h.bounded ((c.policy.overflowed_remove key).symm.trans hfit)
  have hle : costSum (without es key) ≤ costSum es :=
    RecencyList.costSum_le_of_sublist List.filter_sublist
  have hrest : (c.delete key).policy.SumsFit :=
    (ht.remove key).sumsFit hfit (Nat.lt_of_le_of_lt hle (ht.costSum_lt hsums))
  refine ⟨hrest, ?_⟩
  calc (c.delete key).policy.totalCost = costSum (without es key) := (ht.remove key).totalCost hrest
    _ ≤ costSum es := hle
    _ = c.policy.totalCost := (ht.totalCost hsums).symm
    _ ≤ c.maxCost := hbound

theorem Balanced.serve {config : LocalConfig} (h : c.Balanced config) (r : LocalRequest V) :
    (c.serve r).Balanced config := by
  cases r with
  | get key => exact h.get key
  | set key value cost => exact h.set key value cost
  | delete key => exact h.delete key
  | clear => exact h.clear
  | close =>
    exact Balanced.clear ⟨h.maxCost_eq, h.bufferItems_eq, h.books, h.bounded, h.few⟩
  | maintain => exact (h.books.balanced_maintain h.maxCost_eq h.bufferItems_eq).1

theorem balanced_run {chance : Chance} {config : LocalConfig} (h : new chance config = .ok c)
    (rs : List (LocalRequest V)) : (c.run rs).Balanced config := by
  induction rs using List.reverseRecOn with
  | nil => exact balanced_new h
  | append_singleton rs r ih =>
    rw [run_append_singleton]
    exact ih.serve r

/-! ## Where the resident entries come from -/

theorem resident_get (c : FrequencyCache V) (key : String) :
    (c.get key).2.resident = c.resident := by
  unfold get
  cases c.resident[key]? <;> rfl

/-- What is resident after a set was so before, or it is what was set. -/
theorem slot_set {key k : String} {value : V} {cost : Nat} {slot : Slot V}
    (h : (c.set key value cost).2.resident[k]? = some slot) :
    c.resident[k]? = some slot ∨ cost ≤ c.maxCost ∧ key = k ∧ slot = ⟨value, cost⟩ := by
  unfold set at h
  split_ifs at h with href
  · exact .inl h
  · have hins : (c.resident.insert key ⟨value, cost⟩)[k]? = some slot := by
      dsimp only at h
      split_ifs at h
      · exact (maintain_trims _).slots k slot h
      · exact h
    rw [Std.TreeMap.getElem?_insert] at hins
    split_ifs at hins with hk
    · rw [not_or] at href
      exact .inr ⟨Nat.le_of_not_lt href.1, Std.compare_eq_iff_eq.1 hk,
        (Option.some.inj hins).symm⟩
    · exact .inl hins

/-- What is resident after a request was so before, or it was set. -/
theorem slot_serve {r : LocalRequest V} {key : String} {slot : Slot V}
    (h : (c.serve r).resident[key]? = some slot) :
    c.resident[key]? = some slot ∨ slot.cost ≤ c.maxCost ∧ r = .set key slot.value slot.cost := by
  cases r with
  | get k =>
    rw [serve, resident_get] at h
    exact .inl h
  | set k value cost =>
    rcases slot_set h with hs | ⟨hle, rfl, rfl⟩
    · exact .inl hs
    · exact .inr ⟨hle, rfl⟩
  | delete k =>
    rw [serve, delete, Std.TreeMap.getElem?_erase] at h
    split_ifs at h
    exact .inl h
  | clear => simp [serve, clear] at h
  | close => simp [serve, close, clear] at h
  | maintain => exact .inl ((maintain_trims c).slots key slot h)

/-- Every resident entry was set in the run, and its cost is within the bound. -/
theorem slot_run {chance : Chance} {config : LocalConfig} (h : new chance config = .ok c)
    {rs : List (LocalRequest V)} {key : String} {slot : Slot V}
    (hs : (c.run rs).resident[key]? = some slot) :
    slot.cost ≤ config.maxCost.toNat ∧ .set key slot.value slot.cost ∈ rs := by
  induction rs using List.reverseRecOn with
  | nil =>
    obtain ⟨-, -, readCapacity, -, rfl⟩ := exists_eq_empty_of_new h
    simp [run, empty] at hs
  | append_singleton rs r ih =>
    rw [run_append_singleton] at hs
    rcases slot_serve hs with hs | ⟨hle, rfl⟩
    · exact (ih hs).imp_right (List.mem_append_left _)
    · exact ⟨hle.trans_eq (balanced_run h rs).maxCost_eq, by simp⟩

/-! ## Main results -/

theorem Books.resident_of_contains {key : String} (h : c.Books pending)
    (hk : c.policy.contains key = true) : c.resident.contains key = true := by
  obtain ⟨es, ht, ha⟩ := h
  obtain ⟨e, he, rfl⟩ := List.mem_map.1 (ht.contains_iff.1 hk)
  obtain ⟨slot, hs⟩ := ha.found e he
  rw [Std.TreeMap.contains_eq_isSome_getElem?, hs]
  rfl

theorem Books.cost?_of_resident {key : String} {slot : Slot V} (h : c.Books pending)
    (hs : c.resident[key]? = some slot) :
    key ∈ pending ∨ c.policy.cost? key = some slot.cost := by
  obtain ⟨es, ht, ha⟩ := h
  exact (ha.booked key slot hs).imp_right ht.cost?_eq_some_iff.2

/-- When nothing is pending, the tracked keys and costs are the resident ones. -/
theorem Books.settled (h : c.Books []) :
    (∀ key, c.resident[key]?.map Slot.cost = c.policy.cost? key) ∧
      (c.policy.SumsFit → c.residentCost = c.policy.totalCost) := by
  obtain ⟨es, ht, ha⟩ := h
  constructor
  · intro key
    refine Option.ext fun cost => ?_
    rw [← ha.mem_iff, ht.cost?_eq_some_iff]
  · intro hp
    have hperm : c.entries.Perm es := by
      rw [List.perm_ext_iff_of_nodup (c.nodup_entries.of_map _) (ha.nodup.of_map _)]
      intro e
      rw [mem_entries_iff, ← ha.mem_iff]
    rw [residentCost, RecencyList.costSum_perm hperm, ht.totalCost hp]

/-- While no sum is too great for a word, the bound is exceeded by no more than the waiting writes
can bring. -/
theorem residentCost_run_le {chance : Chance} {config : LocalConfig}
    (h : new chance config = .ok c) {rs : List (LocalRequest V)}
    (hfit : (c.run rs).overflowed = false) :
    (c.run rs).policy.totalCost ≤ config.maxCost.toNat ∧
      (c.run rs).residentCost ≤ max 1 config.bufferItems.toNat * config.maxCost.toNat := by
  have hr := balanced_run h rs
  have hfew := hr.few
  rw [hr.bufferItems_eq] at hfew
  obtain ⟨hsums, hbounded⟩ := hr.bounded hfit
  rw [hr.maxCost_eq] at hbounded
  refine ⟨hbounded, ?_⟩
  have hle := hr.books.residentCost_le hsums fun key slot hs => (slot_run h hs).1
  calc (c.run rs).residentCost
    _ ≤ (c.run rs).policy.totalCost + (c.run rs).writes.length * config.maxCost.toNat := hle
    _ ≤ ((c.run rs).writes.length + 1) * config.maxCost.toNat := by
      rw [Nat.succ_mul]
      omega
    _ ≤ max 1 config.bufferItems.toNat * config.maxCost.toNat := Nat.mul_le_mul_right _ hfew

/-- After a pass the bound is kept. -/
theorem Balanced.residentCost_maintain {config : LocalConfig} (h : c.Balanced config)
    (hfit : c.maintain.overflowed = false) :
    c.maintain.residentCost = c.maintain.policy.totalCost ∧
      c.maintain.residentCost ≤ config.maxCost.toNat := by
  obtain ⟨hflushed, hnone⟩ := h.books.balanced_maintain h.maxCost_eq h.bufferItems_eq
  have hbooks := hflushed.books
  rw [hnone] at hbooks
  obtain ⟨hsums, hbounded⟩ := hflushed.bounded hfit
  have hsum := hbooks.settled.2 hsums
  exact ⟨hsum, hsum.trans_le (hbounded.trans_eq hflushed.maxCost_eq)⟩

/-- Between two requests what is tracked is resident, and what is resident is tracked with its cost
or waits, while few writes wait; and the tracked cost keeps the bound, unless a sum of costs was too
great for a word.  So the resident entries exceed the bound by no more than the waiting writes can
bring, and not at all after a pass. -/
theorem books_of_run {chance : Chance} {config : LocalConfig} (h : new chance config = .ok c)
    (rs : List (LocalRequest V)) :
    (∀ key, (c.run rs).policy.contains key = true → (c.run rs).resident.contains key = true) ∧
    (∀ (key : String) (slot : Slot V), (c.run rs).resident[key]? = some slot →
      key ∈ (c.run rs).writes ∨ (c.run rs).policy.cost? key = some slot.cost) ∧
    (c.run rs).writes.length < max 1 config.bufferItems.toNat ∧
    ((c.run rs).overflowed = false →
      (c.run rs).policy.totalCost ≤ config.maxCost.toNat ∧
      (c.run rs).residentCost ≤ max 1 config.bufferItems.toNat * config.maxCost.toNat ∧
      ((∀ key value cost, .set key value cost ∈ rs → cost = 1) →
        (c.run rs).resident.size ≤ config.maxCost.toNat + max 1 config.bufferItems.toNat - 1)) ∧
    (∀ key, (c.run rs).maintain.resident[key]?.map Slot.cost =
      (c.run rs).maintain.policy.cost? key) ∧
    ((c.run rs).maintain.overflowed = false →
      (c.run rs).maintain.residentCost = (c.run rs).maintain.policy.totalCost ∧
      (c.run rs).maintain.residentCost ≤ config.maxCost.toNat) := by
  have hr := balanced_run h rs
  have hfew := hr.few
  rw [hr.bufferItems_eq] at hfew
  obtain ⟨hflushed, hnone⟩ := hr.books.balanced_maintain hr.maxCost_eq hr.bufferItems_eq
  have hsettled := hflushed.books
  rw [hnone] at hsettled
  refine ⟨fun key => hr.books.resident_of_contains, fun key slot => hr.books.cost?_of_resident,
    hfew, fun hfit => ?_, hsettled.settled.1, hr.residentCost_maintain⟩
  obtain ⟨hbounded, hcost⟩ := residentCost_run_le h hfit
  refine ⟨hbounded, hcost, fun hunit => ?_⟩
  have hone (key : String) (slot : Slot V) (hs : (c.run rs).resident[key]? = some slot) :
      slot.cost = 1 := hunit _ _ _ (slot_run h hs).2
  have hle := hr.books.residentCost_le (hr.bounded hfit).1 fun key slot hs => (hone key slot hs).le
  rw [residentCost_of_unit hone] at hle
  omega

/-- Hash functions that read the characters of a key, and reads in the order of their keys. -/
def charChance : Chance where
  rowHash _ key := key.toList.foldl (fun n char => 31 * n + char.val.toUInt64) 0
  stripeHash key := key.toList.foldl (fun n char => 31 * n + char.val.toUInt64) 0
  shuffle _ := .keep
  draw n := n

/-- The configuration of a frequency cache that lets two entries in and two more wait. -/
def twoEntries : LocalConfig := { numCounters := 100, maxCost := 2, bufferItems := 3 }

theorem books_of_run_with_waiting_writes :
    ∃ c : FrequencyCache Nat, new charChance twoEntries = .ok c ∧
      let d := c.run [.set "a" 1 1, .set "b" 2 1, .maintain, .set "c" 3 1, .set "d" 4 1]
      d.overflowed = false ∧ d.maintain.overflowed = false ∧ d.resident.size = 4 ∧
      d.resident.size ≤ twoEntries.maxCost.toNat + max 1 twoEntries.bufferItems.toNat - 1 ∧
      d.writes.length < max 1 twoEntries.bufferItems.toNat ∧
      d.maintain.residentCost ≤ twoEntries.maxCost.toNat := by
  refine ⟨_, rfl, ?_⟩
  intro d
  obtain ⟨-, -, hfew, hbounds, -, hflushed⟩ := books_of_run
    (show new (V := Nat) charChance twoEntries = .ok _ from rfl)
    [.set "a" 1 1, .set "b" 2 1, .maintain, .set "c" 3 1, .set "d" 4 1]
  have hfit : d.overflowed = false := by decide +kernel
  have hfit' : d.maintain.overflowed = false := by decide +kernel
  exact ⟨hfit, hfit', by decide +kernel, (hbounds hfit).2.2 (by simp; omega), hfew,
    (hflushed hfit').2⟩

end FrequencyCache

end PodCache
