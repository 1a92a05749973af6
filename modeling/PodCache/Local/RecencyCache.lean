import PodCache.Error
import PodCache.Local.Config
import PodCache.Local.RecencyList
import PodCache.Text.Record

/-!
# Recency cache

A local cache that keeps a number of entries and, when there is one too many, drops the one that has
not been used for the longest time.  Costs play no part.
-/

namespace PodCache

/-- A local cache that drops the least recently used entry. -/
structure RecencyCache (V : Type) where
  list : RecencyList V
  maxSize : Nat
  hits : Nat
  misses : Nat
  evictions : Nat

namespace RecencyCache

variable {V : Type}

/-- An empty cache for a positive number of entries. -/
def new (maxSize : UInt64) : Except Error (RecencyCache V) :=
  if maxSize = 0 then .error (.invalidConfig .zeroSize)
  else .ok ⟨.empty, maxSize.toNat, 0, 0, 0⟩

/-- Looks a key up and uses its entry. -/
def get (c : RecencyCache V) (key : String) : Option V × RecencyCache V :=
  match c.list.touch key with
  | (some v, list) => (some v, { c with list, hits := c.hits + 1 })
  | (none, list) => (none, { c with list, misses := c.misses + 1 })

/-- Drops the oldest entries until the bound is kept. -/
def evictOverflow (c : RecencyCache V) : RecencyCache V :=
  if c.maxSize < c.list.size then
    match _ : c.list.popBack with
    | none => c
    | some (_, list) => evictOverflow { c with list, evictions := c.evictions + 1 }
  else c
termination_by c.list.size
decreasing_by exact RecencyList.size_popBack_lt ‹_›

/-- Sets the value of a key. -/
def set (c : RecencyCache V) (key : String) (value : V) : RecencyCache V :=
  evictOverflow { c with list := (c.list.pushFront key value 1).2 }

/-- Drops the entry of a key. -/
def delete (c : RecencyCache V) (key : String) : RecencyCache V :=
  match c.list.remove key with
  | some (_, list) => { c with list }
  | none => c

/-- Drops all entries. -/
def clear (c : RecencyCache V) : RecencyCache V := { c with list := c.list.clear }

/-- The cache's counts. -/
def metrics (c : RecencyCache V) : Metrics := ⟨c.hits, c.misses, c.evictions, c.list.size⟩

/-- The description of the cache. -/
def describe (c : RecencyCache V) : String :=
  Text.record "RecencyCache" [("max_size", toString c.maxSize), ("len", toString c.list.size)]

end RecencyCache

end PodCache
