import PodCache.Error
import PodCache.Local.Admission
import PodCache.Local.Config
import PodCache.Local.ReadBuffer

/-!
# Frequency cache

A local cache that is bounded by the sum of the costs of its entries and keeps those that are used
often.  Values are found as soon as they have been set.  Reads and writes are also buffered for the
admission policy, which hears of them in maintenance passes: a pass runs when enough writes wait,
and may run at any other time.  Until then a new entry is resident but not counted against the
bound, and the pass may still decide to drop it.
-/

namespace PodCache

/-- A resident value with its cost. -/
structure FrequencyCache.Slot (V : Type) where
  value : V
  cost : Nat

/-- A local cache that keeps frequently used entries. -/
structure FrequencyCache (V : Type) where
  resident : Std.TreeMap String (FrequencyCache.Slot V)
  policy : Admission
  /-- The written keys that the policy has not heard of, the oldest first. -/
  writes : List String
  reads : ReadBuffer
  maxCost : Nat
  /-- How many waiting writes start a maintenance pass. -/
  bufferItems : Nat
  closed : Bool
  /-- The order of the reads in the `n`-th pass. -/
  shuffle : Nat → Shuffle
  /-- How many passes have been made. -/
  passes : Nat
  hits : Nat
  misses : Nat
  evictions : Nat

namespace FrequencyCache

variable {V : Type}

/-- A cache without entries. -/
def empty (chance : Chance) (config : LocalConfig) (readCapacity : UInt64) : FrequencyCache V where
  resident := ∅
  policy := .new chance.rowHash config.maxCost config.numCounters
  writes := []
  reads := .new chance.stripeHash readCapacity
  maxCost := config.maxCost.toNat
  bufferItems := (max config.bufferItems 1).toNat
  closed := false
  shuffle := chance.shuffle
  passes := 0
  hits := 0
  misses := 0
  evictions := 0

/-- A new cache.  It needs counters and a positive bound. -/
def new (chance : Chance) (config : LocalConfig) : Except Halt (FrequencyCache V) :=
  if config.numCounters = 0 then .error (.refused (.invalidConfig .zeroCounters))
  else if config.maxCost = 0 then .error (.refused (.invalidConfig .zeroCost))
  else
    match Sizing.readCapacity? config.bufferItems with
    | none => .error .panicked
    | some readCapacity => .ok (empty chance config readCapacity)

/-- What is new is empty. -/
theorem exists_eq_empty_of_new {chance : Chance} {config : LocalConfig} {c : FrequencyCache V}
    (h : new chance config = .ok c) :
    config.numCounters ≠ 0 ∧ config.maxCost ≠ 0 ∧ ∃ readCapacity,
      Sizing.readCapacity? config.bufferItems = some readCapacity ∧
        c = empty chance config readCapacity := by
  unfold new at h
  split at h
  · cases h
  · split at h
    · cases h
    · split at h
      · cases h
      · cases h
        exact ⟨‹_›, ‹_›, _, ‹_›, rfl⟩

/-- Whether any sum of costs was too great for a word. -/
def overflowed (c : FrequencyCache V) : Bool := c.policy.overflowed

/-! ## Maintenance -/

/-- Drops a key that the policy gave up. -/
def evictKey (c : FrequencyCache V) (key : String) : FrequencyCache V :=
  if c.resident.contains key then
    { c with resident := c.resident.erase key, evictions := c.evictions + 1 }
  else c

/-- Tells the policy of the reads of a key, if it tracks the key. -/
def applyRead (policy : Admission) (read : String × Nat) : Admission :=
  if policy.contains read.1 then policy.recordReads read.1 read.2 else policy

/-- Tells the policy of a written key, if it is still resident, and drops what gives way. -/
def applyWrite (c : FrequencyCache V) (key : String) : FrequencyCache V :=
  match c.resident[key]? with
  | none => c
  | some slot =>
    let (rejected, policy) := c.policy.offer key slot.cost
    rejected.foldl evictKey { c with policy }

/-- Drops entries until the policy's bound is kept. -/
def enforceBound (c : FrequencyCache V) : FrequencyCache V :=
  let policy := c.policy.noteSum c.policy.totalOverflows
  if c.maxCost < policy.totalCost then
    let (victims, policy) := policy.evict (policy.totalCost - c.maxCost)
    victims.foldl (fun c e => c.evictKey e.key) { c with policy }
  else { c with policy }

/-- A maintenance pass: the buffered reads, then the waiting writes, then the bound. -/
def maintain (c : FrequencyCache V) : FrequencyCache V :=
  let (reads, buffer) := c.reads.drain
  let policy := ((c.shuffle c.passes).apply reads).foldl applyRead c.policy
  let emptied := { c with reads := buffer, policy, writes := [], passes := c.passes + 1 }
  (c.writes.foldl applyWrite emptied).enforceBound

/-! ## Requests -/

/-- Looks a key up; a read that finds it is buffered. -/
def get (c : FrequencyCache V) (key : String) : Option V × FrequencyCache V :=
  match c.resident[key]? with
  | some slot => (some slot.value, { c with hits := c.hits + 1, reads := c.reads.record key })
  | none => (none, { c with misses := c.misses + 1 })

/-- Sets the value of a key.  An entry that alone exceeds the bound is refused, and after closing
every entry is. -/
def set (c : FrequencyCache V) (key : String) (value : V) (cost : Nat) :
    Bool × FrequencyCache V :=
  if c.maxCost < cost ∨ c.closed then (false, c)
  else
    let written :=
      { c with resident := c.resident.insert key ⟨value, cost⟩, writes := c.writes ++ [key] }
    (true, if c.bufferItems ≤ written.writes.length then written.maintain else written)

/-- Drops the entry of a key. -/
def delete (c : FrequencyCache V) (key : String) : FrequencyCache V :=
  { c with resident := c.resident.erase key, policy := (c.policy.remove key).2 }

/-- Drops all entries and what waits. -/
def clear (c : FrequencyCache V) : FrequencyCache V :=
  { c with
    resident := ∅
    policy := c.policy.clear
    writes := []
    reads := c.reads.clear }

/-- Drops all entries for good. -/
def close (c : FrequencyCache V) : FrequencyCache V := { c with closed := true }.clear

/-- The cache's counts. -/
def metrics (c : FrequencyCache V) : Metrics :=
  ⟨c.hits, c.misses, c.evictions, c.resident.size⟩

/-- The description of the cache.  How the entries are spread is not shown. -/
def describe (c : FrequencyCache V) : String :=
  Text.record "FrequencyCache"
    [("max_cost", toString c.maxCost), ("shards", "_"), ("closed", Text.truth c.closed)]

end FrequencyCache

end PodCache
