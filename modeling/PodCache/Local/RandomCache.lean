import PodCache.Error
import PodCache.Local.Config
import Std.Data.TreeMap

/-!
# Random cache

A local cache that keeps a number of entries and makes room for a new key by dropping one at random.
-/

namespace PodCache

/-- A local cache that drops a random entry. -/
structure RandomCache (V : Type) where
  items : Std.TreeMap String V
  maxSize : Nat
  /-- The `n`-th random draw. -/
  draw : Nat → Nat
  /-- How many draws have been made. -/
  drawn : Nat
  hits : Nat
  misses : Nat
  evictions : Nat

namespace RandomCache

variable {V : Type}

/-- An empty cache for a positive number of entries. -/
def new (draw : Nat → Nat) (maxSize : UInt64) : Except Error (RandomCache V) :=
  if maxSize = 0 then .error (.invalidConfig .zeroSize)
  else .ok ⟨∅, maxSize.toNat, draw, 0, 0, 0, 0⟩

/-- Looks a key up. -/
def get (c : RandomCache V) (key : String) : Option V × RandomCache V :=
  match c.items[key]? with
  | some v => (some v, { c with hits := c.hits + 1 })
  | none => (none, { c with misses := c.misses + 1 })

/-- The key that the next draw picks. -/
def victim? (c : RandomCache V) : Option String :=
  c.items.keys[c.draw c.drawn % c.items.size]?

/-- Drops the entry that the next draw picks. -/
def evictOne (c : RandomCache V) : RandomCache V :=
  match c.victim? with
  | some victim =>
    { c with
      items := c.items.erase victim
      drawn := c.drawn + 1
      evictions := c.evictions + 1 }
  | none => c

/-- Sets the value of a key.  A new key needs room. -/
def set (c : RandomCache V) (key : String) (value : V) : RandomCache V :=
  let c := if !c.items.contains key && c.maxSize ≤ c.items.size then c.evictOne else c
  { c with items := c.items.insert key value }

/-- Drops the entry of a key. -/
def delete (c : RandomCache V) (key : String) : RandomCache V :=
  { c with items := c.items.erase key }

/-- Drops all entries. -/
def clear (c : RandomCache V) : RandomCache V := { c with items := ∅ }

/-- The cache's counts. -/
def metrics (c : RandomCache V) : Metrics := ⟨c.hits, c.misses, c.evictions, c.items.size⟩

end RandomCache

end PodCache
