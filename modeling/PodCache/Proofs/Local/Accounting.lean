import PodCache.Proofs.Local.Pass
import PodCache.Proofs.Local.RecencyRuns

/-!
# The counts of local caches

A local cache counts its lookups as hits and misses, and its entries when they give way to others.
The counts leave nothing out: every entry that came in is still there, or it was evicted, or
deleted, or dropped with all others (`accounts_of_run`).  For a frequency cache this says that what
a pass drops is counted once, no matter how often a key waits or which part of the policy gives it
up.
-/

namespace PodCache

open RecencyList (entryFor)

/-- The counts after a lookup. -/
def Metrics.look (m : Metrics) (found : Bool) : Metrics :=
  if found then { m with hits := m.hits + 1 } else { m with misses := m.misses + 1 }

/-- The entries that came in and were not taken out by a request. -/
def Metrics.stock (m : Metrics) : Nat := m.size + m.evictions

theorem Metrics.stock_look (m : Metrics) (found : Bool) : (m.look found).stock = m.stock := by
  cases found <;> rfl

theorem Metrics.lookups_look (m : Metrics) (found : Bool) :
    (m.look found).hits = m.hits + (if found then 1 else 0) ∧
      (m.look found).misses = m.misses + if found then 0 else 1 := by
  cases found <;> exact ⟨rfl, rfl⟩

/-- Whether a request is a lookup. -/
def LocalRequest.isGet {V : Type} : LocalRequest V → Bool
  | .get _ => true
  | _ => false

/-! ## Sizes of maps -/

section TreeMap

variable {α : Type} (m : Std.TreeMap String α) (key : String)

theorem size_insert_eq (a : α) :
    (m.insert key a).size = m.size + if m.contains key then 0 else 1 := by
  rw [Std.TreeMap.size_insert]
  split_ifs <;> rfl

theorem size_erase_add : (m.erase key).size + (if m.contains key then 1 else 0) = m.size := by
  rw [Std.TreeMap.size_erase]
  split_ifs with h
  · have hpos : 0 < m.keys.length := List.length_pos_of_mem (Std.TreeMap.mem_keys.2 h)
    rw [Std.TreeMap.length_keys] at hpos
    exact Nat.sub_add_cancel hpos
  · rfl

end TreeMap

/-! ## Recency caches -/

namespace RecencyCache

variable {V : Type} {c c' : RecencyCache V} {r : LocalRequest V} {maxSize : Nat}

theorem Serves.stock_eq (h : c.Serves r c') :
    c'.metrics.stock =
      (entriesAfter c.maxSize c.entries r).length + c.evictions +
        evictionsOf c.maxSize c.entries r := by
  simp only [metrics, Metrics.stock, h.holds.size_eq, h.entries_eq, h.evictions_eq]
  exact (Nat.add_assoc _ _ _).symm

theorem stock_eq (h : c.list.Holds c.entries) :
    c.metrics.stock = c.entries.length + c.evictions := by
  rw [metrics, Metrics.stock, h.size_eq]

theorem metrics_get (h : c.list.Holds c.entries) (key : String) :
    (c.get key).2.metrics = c.metrics.look (c.list.contents key).isSome := by
  have hserves := serves_get h key
  have hsize : (c.get key).2.list.size = c.list.size := by
    rw [hserves.holds.size_eq, hserves.entries_eq, h.size_eq]
    exact (RecencyList.entryFor_append_without_perm h.nodup key).length_eq
  rw [← RecencyList.touch_fst]
  unfold get at hsize ⊢
  generalize c.list.touch key = touched at hsize ⊢
  obtain ⟨_ | value, list⟩ := touched <;> simp only [metrics, hsize] <;> rfl

theorem stock_set (h : c.list.Holds c.entries) (key : String) (value : V) :
    (c.set key value).metrics.stock =
      c.metrics.stock + if (entryFor c.entries key).isSome then 0 else 1 := by
  have hlen := length_without_add h.nodup key
  rw [(serves_set h key value 1).stock_eq, stock_eq h]
  simp only [entriesAfter, evictionsOf, List.length_take, List.length_cons]
  split_ifs at hlen ⊢ <;> omega

theorem stock_delete (h : c.list.Holds c.entries) (key : String) :
    (c.delete key).metrics.stock + (if (entryFor c.entries key).isSome then 1 else 0) =
      c.metrics.stock := by
  have hlen := length_without_add h.nodup key
  rw [(serves_delete h key).stock_eq, stock_eq h]
  simp only [entriesAfter, evictionsOf]
  omega

/-- A set evicts for a new key when the cache is full, and otherwise not at all. -/
theorem evictions_set (h : c.Sound maxSize) (key : String) (value : V) :
    (c.set key value).evictions = c.evictions +
      if (entryFor c.entries key).isNone ∧ c.list.size = maxSize then 1 else 0 := by
  have hlen := length_without_add h.holds.nodup key
  have hle := h.length_le
  rw [(serves_set h.holds key value 1).evictions_eq, evictionsOf, h.maxSize_eq, h.holds.size_eq]
  congr 1
  cases he : entryFor c.entries key with
  | none =>
    simp only [he, Option.isSome_none, Bool.false_eq_true, if_false] at hlen
    simp only [Option.isNone_none, true_and]
    split_ifs <;> omega
  | some e =>
    simp only [he, Option.isSome_some, if_true] at hlen
    simp only [Option.isNone_some, Bool.false_eq_true, false_and, if_false]
    omega

/-- What was set is found. -/
theorem contents_set_self (h : c.Sound maxSize) (hpos : 0 < maxSize) (key : String) (value : V) :
    (c.set key value).list.contents key = some value := by
  have hserves := serves_set h.holds key value 1
  rw [← get_fst, get_fst_eq hserves.holds, hserves.entries_eq, entriesAfter, h.maxSize_eq]
  obtain ⟨n, rfl⟩ := Nat.exists_eq_succ_of_ne_zero hpos.ne'
  simp [entryFor]

end RecencyCache

/-! ## Random caches -/

namespace RandomCache

variable {V : Type} {c : RandomCache V}

theorem contains_victim {victim : String} (h : c.victim? = some victim) :
    c.items.contains victim = true :=
  Std.TreeMap.mem_keys.1 (List.mem_of_getElem? h)

/-- A draw from a cache that is not empty picks a key. -/
theorem victim?_isSome (h : 0 < c.items.size) : c.victim?.isSome := by
  rw [victim?, isSome_getElem?, Std.TreeMap.length_keys]
  exact Nat.mod_lt _ h

theorem stock_evictOne (c : RandomCache V) : c.evictOne.metrics.stock = c.metrics.stock := by
  unfold evictOne
  cases hv : c.victim? with
  | none => rfl
  | some victim =>
    have hsize := size_erase_add c.items victim
    rw [if_pos (contains_victim hv)] at hsize
    simp only [metrics, Metrics.stock]
    omega

theorem evictions_evictOne (h : 0 < c.items.size) : c.evictOne.evictions = c.evictions + 1 := by
  obtain ⟨victim, hv⟩ := Option.isSome_iff_exists.1 (victim?_isSome h)
  simp only [evictOne, hv]

theorem contains_evictOne {key : String} (h : c.items.contains key = false) :
    c.evictOne.items.contains key = false := by
  unfold evictOne
  cases c.victim? <;> simp [h]

/-- The cache with room for a key. -/
def roomFor (c : RandomCache V) (key : String) : RandomCache V :=
  if !c.items.contains key && c.maxSize ≤ c.items.size then c.evictOne else c

theorem set_eq (c : RandomCache V) (key : String) (value : V) :
    c.set key value = { c.roomFor key with items := (c.roomFor key).items.insert key value } := rfl

/-- A set counts no lookup and leaves the bound. -/
theorem set_frame (c : RandomCache V) (key : String) (value : V) :
    ∃ items drawn evictions, c.set key value = { c with items, drawn, evictions } := by
  rw [set_eq]
  unfold roomFor evictOne
  split_ifs
  · cases c.victim? <;> exact ⟨_, _, _, rfl⟩
  · exact ⟨_, _, _, rfl⟩

theorem metrics_get (c : RandomCache V) (key : String) :
    (c.get key).2.metrics = c.metrics.look (c.contents key).isSome := by
  unfold get contents
  cases c.items[key]? <;> rfl

theorem stock_roomFor (c : RandomCache V) (key : String) :
    (c.roomFor key).metrics.stock = c.metrics.stock := by
  unfold roomFor
  split_ifs
  · exact stock_evictOne c
  · rfl

theorem contains_roomFor (c : RandomCache V) (key : String) :
    (c.roomFor key).items.contains key = c.items.contains key := by
  unfold roomFor
  split_ifs with h
  · have hk : c.items.contains key = false := by
      rw [← Bool.not_eq_true']
      exact (Bool.and_eq_true_iff.1 h).1
    rw [hk, contains_evictOne hk]
  · rfl

theorem stock_set (c : RandomCache V) (key : String) (value : V) :
    (c.set key value).metrics.stock =
      c.metrics.stock + if c.items.contains key then 0 else 1 := by
  have hsize := size_insert_eq (c.roomFor key).items key value
  have hstock := c.stock_roomFor key
  rw [contains_roomFor] at hsize
  simp only [metrics, Metrics.stock, set_eq] at hstock ⊢
  omega

theorem stock_delete (c : RandomCache V) (key : String) :
    (c.delete key).metrics.stock + (if c.items.contains key then 1 else 0) = c.metrics.stock := by
  have hsize := size_erase_add c.items key
  simp only [metrics, Metrics.stock, delete]
  omega

/-- What holds of a cache between two requests. -/
structure Sound (maxSize : Nat) (c : RandomCache V) : Prop where
  pos : 0 < maxSize
  maxSize_eq : c.maxSize = maxSize
  size_le : c.items.size ≤ maxSize

theorem evictions_set {maxSize : Nat} (h : c.Sound maxSize) (key : String) (value : V) :
    (c.set key value).evictions = c.evictions +
      if (!c.items.contains key) ∧ c.items.size = maxSize then 1 else 0 := by
  have hle := h.size_le
  have hpos := h.pos
  rw [set_eq, roomFor, h.maxSize_eq]
  -- what is held never exceeds the bound, so a cache without room is exactly full
  have hiff : (!c.items.contains key && decide (maxSize ≤ c.items.size)) = true ↔
      (!c.items.contains key) = true ∧ c.items.size = maxSize := by
    rw [Bool.and_eq_true, decide_eq_true_iff, hle.ge_iff_eq]
  by_cases hfull : (!c.items.contains key) = true ∧ c.items.size = maxSize
  · rw [if_pos hfull, if_pos (hiff.2 hfull)]
    exact evictions_evictOne (hpos.trans_eq hfull.2.symm)
  · rw [if_neg hfull, if_neg (mt hiff.1 hfull)]
    rfl

/-- A cache evicts for a new key only when it is full, so it never holds too much. -/
theorem Sound.set {maxSize : Nat} (h : c.Sound maxSize) (key : String) (value : V) :
    (c.set key value).Sound maxSize := by
  obtain ⟨items, drawn, evictions, heq⟩ := c.set_frame key value
  refine ⟨h.pos, (congrArg RandomCache.maxSize heq).trans h.maxSize_eq, ?_⟩
  have hle := h.size_le
  have hstock := c.stock_set key value
  rw [Metrics.stock, Metrics.stock, metrics, metrics, evictions_set h] at hstock
  dsimp only at hstock
  cases hk : c.items.contains key with
  | true =>
    simp only [hk, if_true] at hstock
    omega
  | false =>
    simp only [hk, Bool.not_false, true_and, Bool.false_eq_true, if_false] at hstock
    split_ifs at hstock <;> omega

theorem new_eq {draw : Nat → Nat} {maxSize : UInt64} (h : new draw maxSize = .ok c) :
    0 < maxSize.toNat ∧ c = ⟨∅, maxSize.toNat, draw, 0, 0, 0, 0⟩ := by
  unfold new at h
  split_ifs at h with hzero
  exact ⟨Nat.pos_of_ne_zero fun h0 => hzero (UInt64.toNat_inj.1 h0), (Except.ok.inj h).symm⟩

theorem sound_new {draw : Nat → Nat} {maxSize : UInt64} (h : new draw maxSize = .ok c) :
    c.Sound maxSize.toNat := by
  obtain ⟨hpos, rfl⟩ := new_eq h
  exact ⟨hpos, rfl, Nat.zero_le _⟩

theorem Sound.get {maxSize : Nat} (h : c.Sound maxSize) (key : String) :
    (c.get key).2.Sound maxSize := by
  unfold RandomCache.get
  cases c.items[key]? <;> exact ⟨h.pos, h.maxSize_eq, h.size_le⟩

theorem Sound.delete {maxSize : Nat} (h : c.Sound maxSize) (key : String) :
    (c.delete key).Sound maxSize :=
  ⟨h.pos, h.maxSize_eq, Std.TreeMap.size_erase_le.trans h.size_le⟩

end RandomCache

/-! ## Frequency caches -/

namespace FrequencyCache

variable {V : Type}

theorem stock_evictKey (c : FrequencyCache V) (key : String) :
    (c.evictKey key).metrics.stock = c.metrics.stock := by
  unfold evictKey
  split_ifs with hk
  · have hsize := size_erase_add c.resident key
    rw [if_pos hk] at hsize
    simp only [metrics, Metrics.stock]
    omega
  · rfl

theorem stock_foldl {α : Type} {f : FrequencyCache V → α → FrequencyCache V}
    (hf : ∀ c a, (f c a).metrics.stock = c.metrics.stock) (as : List α) (c : FrequencyCache V) :
    (as.foldl f c).metrics.stock = c.metrics.stock := by
  induction as generalizing c with
  | nil => rfl
  | cons a as ih => exact (ih (f c a)).trans (hf c a)

theorem stock_applyWrite (c : FrequencyCache V) (key : String) :
    (c.applyWrite key).metrics.stock = c.metrics.stock := by
  unfold applyWrite
  cases c.resident[key]? with
  | none => rfl
  | some slot => exact stock_foldl stock_evictKey _ _

theorem stock_enforceBound (c : FrequencyCache V) :
    c.enforceBound.metrics.stock = c.metrics.stock := by
  unfold enforceBound
  dsimp only
  split_ifs
  · exact stock_foldl (fun c (e : Entry Unit) => stock_evictKey c e.key) _ _
  · rfl

/-- A pass counts what it drops, once each. -/
theorem stock_maintain (c : FrequencyCache V) : c.maintain.metrics.stock = c.metrics.stock :=
  (stock_enforceBound _).trans (stock_foldl stock_applyWrite _ _)

theorem lookups_maintain (c : FrequencyCache V) :
    c.maintain.hits = c.hits ∧ c.maintain.misses = c.misses := by
  obtain ⟨resident, policy, evictions, heq⟩ := (maintain_trims c).frame
  rw [heq]
  exact ⟨rfl, rfl⟩

theorem stock_insert (c : FrequencyCache V) (key : String) (slot : Slot V)
    (writes : List String) :
    (metrics { c with resident := c.resident.insert key slot, writes }).stock =
      c.metrics.stock + if c.resident.contains key then 0 else 1 := by
  have hsize := size_insert_eq c.resident key slot
  simp only [metrics, Metrics.stock]
  omega

theorem stock_set {c : FrequencyCache V} {cost : Nat} (h : ¬ (c.maxCost < cost ∨ c.closed))
    (key : String) (value : V) : (c.set key value cost).2.metrics.stock =
      c.metrics.stock + if c.resident.contains key then 0 else 1 := by
  rw [← c.stock_insert key ⟨value, cost⟩ (c.writes ++ [key])]
  unfold set
  rw [if_neg h]
  dsimp only
  split_ifs
  · exact stock_maintain _
  · rfl

theorem lookups_set (c : FrequencyCache V) (key : String) (value : V) (cost : Nat) :
    (c.set key value cost).2.hits = c.hits ∧ (c.set key value cost).2.misses = c.misses := by
  unfold set
  dsimp only
  split_ifs
  · exact ⟨rfl, rfl⟩
  · exact lookups_maintain _
  · exact ⟨rfl, rfl⟩

theorem metrics_get (c : FrequencyCache V) (key : String) :
    (c.get key).2.metrics = c.metrics.look (c.contents key).isSome := by
  unfold get contents
  cases c.resident[key]? <;> rfl

theorem stock_delete (c : FrequencyCache V) (key : String) :
    (c.delete key).metrics.stock + (if c.resident.contains key then 1 else 0) =
      c.metrics.stock := by
  have hsize := size_erase_add c.resident key
  simp only [metrics, Metrics.stock, delete]
  omega

end FrequencyCache

/-! ## What comes in and what goes out -/

namespace LocalCache

variable {V : Type} {c : LocalCache V}

/-- The keys that a cache holds. -/
def keys : LocalCache V → List String
  | .recency c => c.entries.map Entry.key
  | .random c => c.items.keys
  | .frequency c => c.resident.keys

/-- The lookups among a request that find their key. -/
def found (c : LocalCache V) : LocalRequest V → Nat
  | .get key => if (c.contents key).isSome then 1 else 0
  | _ => 0

/-- The lookups among a request that do not find their key. -/
def missed (c : LocalCache V) : LocalRequest V → Nat
  | .get key => if (c.contents key).isSome then 0 else 1
  | _ => 0

/-- The entries that a request adds: one, for a set that is taken and whose key was not there. -/
def added (c : LocalCache V) : LocalRequest V → Nat
  | .set key value cost => if (c.set key value cost).1 ∧ (c.contents key).isNone then 1 else 0
  | _ => 0

/-- The entries that a request deletes by their key. -/
def deleted (c : LocalCache V) : LocalRequest V → Nat
  | .delete key => if (c.contents key).isSome then 1 else 0
  | _ => 0

/-- The entries that a request drops with all others. -/
def dropped (c : LocalCache V) : LocalRequest V → Nat
  | .clear | .close => c.metrics.size
  | _ => 0

/-- The sum over a run of what each request counts in the cache that it finds. -/
def total (count : LocalCache V → LocalRequest V → Nat) (c : LocalCache V) :
    List (LocalRequest V) → Nat
  | [] => 0
  | r :: rs => count c r + total count (c.serve r) rs

theorem total_append_singleton (count : LocalCache V → LocalRequest V → Nat) (c : LocalCache V)
    (rs : List (LocalRequest V)) (r : LocalRequest V) :
    total count c (rs ++ [r]) = total count c rs + count (c.run rs) r := by
  induction rs generalizing c with
  | nil => simp [total, run]
  | cons r' rs ih => simp [total, run, ih, Nat.add_assoc]

/-! ## Between two requests -/

/-- What holds of a cache of a kind between two requests. -/
inductive Sound (config : LocalConfig) : Kind → LocalCache V → Prop where
  | recency {c : RecencyCache V} (pos : 0 < config.maxSize.toNat)
      (sound : c.Sound config.maxSize.toNat) : Sound config .recency (.recency c)
  | random {c : RandomCache V} (sound : c.Sound config.maxSize.toNat) :
      Sound config .random (.random c)
  | frequency (c : FrequencyCache V) : Sound config .frequency (.frequency c)

variable {kind : Kind} {config : LocalConfig}

theorem sound_new {chance : Chance} (h : new chance kind config = .ok c) :
    c.Sound config kind := by
  cases isNew_of_new h with
  | recency hc => exact .recency (RecencyCache.maxSize_pos hc) (RecencyCache.sound_new hc)
  | random hc => exact .random (RandomCache.sound_new hc)
  | frequency hc => exact .frequency _

theorem Sound.serve (h : c.Sound config kind) (r : LocalRequest V) :
    (c.serve r).Sound config kind := by
  cases h with
  | recency pos sound =>
    have hserve := sound.serve r
    cases r <;> exact .recency pos hserve
  | random sound =>
    cases r with
    | get key => exact .random (sound.get key)
    | set key value cost => exact .random (sound.set key value)
    | delete key => exact .random (sound.delete key)
    | clear | close => exact .random ⟨sound.pos, sound.maxSize_eq, Nat.zero_le _⟩
    | maintain => exact .random sound
  | frequency c => cases r <;> exact .frequency _

theorem sound_run {chance : Chance} (h : new chance kind config = .ok c)
    (rs : List (LocalRequest V)) : (c.run rs).Sound config kind := by
  induction rs using List.reverseRecOn with
  | nil => exact sound_new h
  | append_singleton rs r ih =>
    rw [run_append_singleton]
    exact ih.serve r

/-! ## Counts of a request -/

theorem isSome_contents_recency {c : RecencyCache V} (h : c.list.Holds c.entries) (key : String) :
    ((LocalCache.recency c).contents key).isSome = (entryFor c.entries key).isSome := by
  rw [← get_fst]
  exact (congrArg Option.isSome (RecencyCache.get_fst_eq h key)).trans Option.isSome_map

theorem isSome_contents_random (c : RandomCache V) (key : String) :
    ((LocalCache.random c).contents key).isSome = c.items.contains key :=
  Std.TreeMap.contains_eq_isSome_getElem?.symm

theorem isSome_contents_frequency (c : FrequencyCache V) (key : String) :
    ((LocalCache.frequency c).contents key).isSome = c.resident.contains key :=
  Option.isSome_map.trans Std.TreeMap.contains_eq_isSome_getElem?.symm

theorem metrics_get (h : c.Sound config kind) (key : String) :
    (c.get key).2.metrics = c.metrics.look (c.contents key).isSome := by
  cases h with
  | recency pos sound => exact RecencyCache.metrics_get sound.holds key
  | random sound => exact RandomCache.metrics_get _ key
  | frequency c => exact c.metrics_get key

theorem stock_set (h : c.Sound config kind) {cost : Nat} (ht : c.takes cost) (key : String)
    (value : V) : (c.set key value cost).2.metrics.stock =
      c.metrics.stock + if (c.contents key).isSome then 0 else 1 := by
  cases h with
  | recency pos sound =>
    rw [isSome_contents_recency sound.holds]
    exact RecencyCache.stock_set sound.holds key value
  | random sound =>
    rw [isSome_contents_random]
    exact RandomCache.stock_set _ key value
  | frequency c =>
    rw [isSome_contents_frequency]
    exact FrequencyCache.stock_set ht key value

theorem stock_delete (h : c.Sound config kind) (key : String) :
    (c.delete key).metrics.stock + (if (c.contents key).isSome then 1 else 0) =
      c.metrics.stock := by
  cases h with
  | recency pos sound =>
    rw [isSome_contents_recency sound.holds]
    exact RecencyCache.stock_delete sound.holds key
  | random sound =>
    rw [isSome_contents_random]
    exact RandomCache.stock_delete _ key
  | frequency c =>
    rw [isSome_contents_frequency]
    exact FrequencyCache.stock_delete c key

theorem stock_clear (c : LocalCache V) :
    c.clear.metrics.stock + c.metrics.size = c.metrics.stock ∧
      c.close.metrics.stock + c.metrics.size = c.metrics.stock := by
  have hswap (m : Metrics) : 0 + m.evictions + m.size = m.stock := by
    rw [Metrics.stock]
    omega
  cases c with
  | recency c => exact ⟨hswap c.metrics, hswap c.metrics⟩
  | random c => exact ⟨hswap c.metrics, hswap c.metrics⟩
  | frequency c => exact ⟨hswap c.metrics, hswap c.metrics⟩

theorem lookups_set (h : c.Sound config kind) (key : String) (value : V) (cost : Nat) :
    (c.set key value cost).2.metrics.hits = c.metrics.hits ∧
      (c.set key value cost).2.metrics.misses = c.metrics.misses := by
  cases h with
  | recency pos sound =>
    have hserves := RecencyCache.serves_set sound.holds key value cost
    exact ⟨hserves.hits_eq, hserves.misses_eq⟩
  | @random c sound =>
    obtain ⟨items, drawn, evictions, heq⟩ := c.set_frame key value
    simp only [set, metrics, RandomCache.metrics, heq, and_self]
  | frequency c => exact c.lookups_set key value cost

theorem lookups_delete (h : c.Sound config kind) (key : String) :
    (c.delete key).metrics.hits = c.metrics.hits ∧
      (c.delete key).metrics.misses = c.metrics.misses := by
  cases h with
  | recency pos sound =>
    have hserves := RecencyCache.serves_delete sound.holds key
    exact ⟨hserves.hits_eq, hserves.misses_eq⟩
  | random | frequency => exact ⟨rfl, rfl⟩

theorem lookups_maintain (c : LocalCache V) :
    c.maintain.metrics.hits = c.metrics.hits ∧ c.maintain.metrics.misses = c.metrics.misses := by
  cases c with
  | recency | random => exact ⟨rfl, rfl⟩
  | frequency c => exact c.lookups_maintain

/-- A lookup adds one to the hits or to the misses, and nothing else adds to them. -/
theorem lookups_serve (h : c.Sound config kind) (r : LocalRequest V) :
    (c.serve r).metrics.hits = c.metrics.hits + found c r ∧
      (c.serve r).metrics.misses = c.metrics.misses + missed c r := by
  cases r with
  | get key =>
    rw [serve, metrics_get h]
    exact c.metrics.lookups_look _
  | set key value cost => exact lookups_set h key value cost
  | delete key => exact lookups_delete h key
  | clear | close => cases c <;> exact ⟨rfl, rfl⟩
  | maintain => exact c.lookups_maintain

theorem stock_maintain (c : LocalCache V) : c.maintain.metrics.stock = c.metrics.stock := by
  cases c with
  | recency | random => rfl
  | frequency c => exact c.stock_maintain

/-- What a request adds stays or gives way to others until a request takes it out. -/
theorem stock_serve (h : c.Sound config kind) (r : LocalRequest V) :
    (c.serve r).metrics.stock + deleted c r + dropped c r = c.metrics.stock + added c r := by
  cases r with
  | get key =>
    rw [serve, metrics_get h]
    exact c.metrics.stock_look _
  | set key value cost =>
    by_cases ht : c.takes cost
    · have hstock := stock_set h ht key value
      simp only [serve, deleted, dropped, added, (set_fst c key value cost).2 ht]
      cases hk : c.contents key <;> simpa [hk] using hstock
    · simp only [serve, deleted, dropped, added, set_of_not_takes ht]
      rfl
  | delete key => exact stock_delete h key
  | clear => exact c.stock_clear.1
  | close => exact c.stock_clear.2
  | maintain => exact c.stock_maintain

/-! ## Keys and bounds -/

theorem keys_nodup (h : c.Sound config kind) : c.keys.Nodup := by
  cases h with
  | recency pos sound => exact sound.holds.nodup
  | random | frequency => exact Std.TreeMap.nodup_keys

theorem mem_keys_iff (h : c.Sound config kind) (key : String) :
    key ∈ c.keys ↔ (c.contents key).isSome := by
  cases h with
  | recency pos sound =>
    rw [isSome_contents_recency sound.holds, Option.isSome_iff_ne_none, ne_eq,
      RecencyList.entryFor_eq_none_iff, not_not]
    rfl
  | random sound =>
    rw [isSome_contents_random]
    exact Std.TreeMap.mem_keys
  | frequency c =>
    rw [isSome_contents_frequency]
    exact Std.TreeMap.mem_keys

theorem length_keys (h : c.Sound config kind) : c.keys.length = c.metrics.size := by
  cases h with
  | recency pos sound => exact (List.length_map _).trans sound.holds.size_eq.symm
  | random | frequency => exact Std.TreeMap.length_keys

theorem size_le (h : c.Sound config kind) (hkind : kind ≠ .frequency) :
    c.metrics.size ≤ config.maxSize.toNat := by
  cases h with
  | recency pos sound => exact sound.holds.size_eq.trans_le sound.length_le
  | random sound => exact sound.size_le
  | frequency c => exact absurd rfl hkind

theorem evictions_set (h : c.Sound config kind) (hkind : kind ≠ .frequency) (key : String)
    (value : V) (cost : Nat) :
    (c.set key value cost).2.metrics.evictions = c.metrics.evictions +
      if (c.contents key).isNone ∧ c.metrics.size = config.maxSize.toNat then 1 else 0 := by
  rw [← Option.not_isSome]
  cases h with
  | recency pos sound =>
    rw [isSome_contents_recency sound.holds, Option.not_isSome]
    exact RecencyCache.evictions_set sound key value
  | random sound =>
    rw [isSome_contents_random]
    exact RandomCache.evictions_set sound key value
  | frequency c => exact absurd rfl hkind

theorem contents_set_self (h : c.Sound config kind) (hkind : kind ≠ .frequency) (key : String)
    (value : V) (cost : Nat) : (c.set key value cost).2.contents key = some value := by
  cases h with
  | recency pos sound => exact RecencyCache.contents_set_self sound pos key value
  | random sound => exact Std.TreeMap.getElem?_insert_self
  | frequency c => exact absurd rfl hkind

/-! ## Main results -/

/-- A cache after a run, by its counts. -/
structure Accounted (kind : Kind) (config : LocalConfig) (c : LocalCache V)
    (rs : List (LocalRequest V)) (d : LocalCache V) : Prop where
  /-- Hits are the lookups that found their key. -/
  hits : d.metrics.hits = total found c rs
  /-- Hits and misses together are the lookups. -/
  lookups : d.metrics.hits + d.metrics.misses = rs.countP LocalRequest.isGet
  /-- What came in is there, or it was evicted, deleted or dropped with all others. -/
  entries : total added c rs =
    d.metrics.size + d.metrics.evictions + total deleted c rs + total dropped c rs
  /-- The size counts the keys that have a value. -/
  keys : d.keys.Nodup ∧ d.keys.length = d.metrics.size ∧
    ∀ key, key ∈ d.keys ↔ (d.contents key).isSome
  /-- A cache that is bounded by a number of entries keeps the bound. -/
  bound : kind ≠ .frequency → d.metrics.size ≤ config.maxSize.toNat
  /-- It evicts one entry for a new key when it is full, and otherwise none. -/
  evicts : kind ≠ .frequency → ∀ key value cost,
    (d.set key value cost).2.metrics.evictions = d.metrics.evictions +
      if (d.contents key).isNone ∧ d.metrics.size = config.maxSize.toNat then 1 else 0
  /-- The key that was just set is there. -/
  keeps : kind ≠ .frequency → ∀ key value cost,
    (d.set key value cost).2.contents key = some value

theorem metrics_new {chance : Chance} (h : new chance kind config = .ok c) :
    c.metrics = ⟨0, 0, 0, 0⟩ := by
  cases isNew_of_new h with
  | recency hc =>
    obtain rfl := RecencyCache.new_eq hc
    rfl
  | random hc =>
    obtain ⟨-, rfl⟩ := RandomCache.new_eq hc
    rfl
  | frequency hc =>
    obtain ⟨-, -, readCapacity, -, rfl⟩ := FrequencyCache.exists_eq_empty_of_new hc
    rfl

theorem lookups_run {chance : Chance} (h : new chance kind config = .ok c)
    (rs : List (LocalRequest V)) :
    (c.run rs).metrics.hits = total found c rs ∧
      (c.run rs).metrics.misses = total missed c rs := by
  induction rs using List.reverseRecOn with
  | nil => exact ⟨congrArg Metrics.hits (metrics_new h), congrArg Metrics.misses (metrics_new h)⟩
  | append_singleton rs r ih =>
    obtain ⟨hhits, hmisses⟩ := lookups_serve (sound_run h rs) r
    simp only [run_append_singleton, total_append_singleton]
    exact ⟨hhits.trans (congrArg (· + _) ih.1), hmisses.trans (congrArg (· + _) ih.2)⟩

theorem total_found_add_missed (c : LocalCache V) (rs : List (LocalRequest V)) :
    total found c rs + total missed c rs = rs.countP LocalRequest.isGet := by
  induction rs generalizing c with
  | nil => rfl
  | cons r rs ih =>
    have hr : found c r + missed c r = if r.isGet then 1 else 0 := by
      cases r with
      | get key => cases hk : c.contents key <;> simp [found, missed, hk, LocalRequest.isGet]
      | set | delete | clear | close | maintain => rfl
    have hrest := ih (c.serve r)
    rw [List.countP_cons, total, total]
    omega

theorem stock_run {chance : Chance} (h : new chance kind config = .ok c)
    (rs : List (LocalRequest V)) :
    (c.run rs).metrics.stock + total deleted c rs + total dropped c rs = total added c rs := by
  induction rs using List.reverseRecOn with
  | nil => exact congrArg Metrics.stock (metrics_new h)
  | append_singleton rs r ih =>
    have hstock := stock_serve (sound_run h rs) r
    simp only [run_append_singleton, total_append_singleton]
    omega

/-- After every run the counts account for every lookup and every entry, and a cache that is bounded
by a number of entries evicts exactly when a new key finds it full. -/
theorem accounts_of_run {chance : Chance} (h : new chance kind config = .ok c)
    (rs : List (LocalRequest V)) : Accounted kind config c rs (c.run rs) := by
  have hsound := sound_run h rs
  obtain ⟨hhits, hmisses⟩ := lookups_run h rs
  refine ⟨hhits, ?_, (stock_run h rs).symm,
    ⟨keys_nodup hsound, length_keys hsound, mem_keys_iff hsound⟩, size_le hsound,
    evictions_set hsound, contents_set_self hsound⟩
  rw [hhits, hmisses, total_found_add_missed]

/-- The configuration of a cache for two entries, of any kind. -/
def roomForTwo : LocalConfig := { numCounters := 100, maxCost := 2, bufferItems := 3, maxSize := 2 }

/-- Requests that overwrite, evict, delete and drop, and lookups that hit and miss. -/
def mixedRequests : List (LocalRequest Nat) :=
  [.set "a" 1 1, .set "b" 2 1, .get "a", .set "c" 3 1, .set "c" 4 1, .get "x", .set "d" 5 1,
    .delete "d", .set "e" 6 1, .clear, .set "f" 7 1]

theorem accounts_of_run_with_random_draws :
    ∃ c : LocalCache Nat, new Chance.standard .random roomForTwo = .ok c ∧
      total added c mixedRequests = 6 ∧ total deleted c mixedRequests = 1 ∧
      total dropped c mixedRequests = 2 ∧ (c.run mixedRequests).metrics = ⟨1, 1, 2, 1⟩ ∧
      Accounted .random roomForTwo c mixedRequests (c.run mixedRequests) ∧
      ((c.run mixedRequests).set "g" 8 1).2.contents "g" = some 8 :=
  ⟨_, rfl, by decide +kernel, by decide +kernel, by decide +kernel, by decide +kernel,
    accounts_of_run rfl _, (accounts_of_run (show new _ .random roomForTwo = .ok _ from rfl)
      mixedRequests).keeps (by decide) "g" 8 1⟩

-- in a frequency cache `c` is written twice, given up between the two, and counted once
example :
    ∃ c : LocalCache Nat, new FrequencyCache.charChance .frequency roomForTwo = .ok c ∧
      (c.run [.set "a" 1 1, .set "b" 2 1, .maintain, .get "a", .get "a", .maintain,
        .set "c" 3 1, .set "d" 4 1, .set "c" 5 1]).metrics = ⟨2, 0, 2, 2⟩ :=
  ⟨_, rfl, by decide +kernel⟩

end LocalCache

end PodCache
