import PodCache.Json.Fields
import PodCache.Text.Record

/-!
# Sizes and counts of a local cache

The sizes that a local cache is configured with, and what it counts about itself.  Each kind of
cache uses the sizes that concern it.  All are 64-bit words and all have defaults, also when they
are read from JSON.
-/

namespace PodCache

/-- The configuration of a local cache. -/
structure LocalConfig where
  /-- How many counters estimate the frequency of keys. -/
  numCounters : UInt64 := 1000000
  /-- The bound of a frequency cache on the sum of the costs of its entries. -/
  maxCost : UInt64 := 1073741824
  /-- How many writes may wait before they are applied. -/
  bufferItems : UInt64 := 64
  /-- The bound of the other caches on the number of their entries. -/
  maxSize : UInt64 := 10000
  deriving DecidableEq, Repr

namespace LocalConfig

/-- The names of the fields in their order. -/
def fieldNames : List String := ["num_counters", "max_cost", "buffer_items", "max_size"]

/-- The configuration that a syntax tree spells; missing fields have their defaults. -/
def ofTree? (t : Json.Tree) : Option LocalConfig :=
  let default : LocalConfig := {}
  match t.fields? fieldNames with
  | some [counters, cost, items, size] => do
    let numCounters ← Json.Tree.orDefault? default.numCounters Json.Tree.word? counters
    let maxCost ← Json.Tree.orDefault? default.maxCost Json.Tree.word? cost
    let bufferItems ← Json.Tree.orDefault? default.bufferItems Json.Tree.word? items
    let maxSize ← Json.Tree.orDefault? default.maxSize Json.Tree.word? size
    return { numCounters, maxCost, bufferItems, maxSize }
  | _ => none

/-- The configuration that a text spells. -/
def read? (bytes : Bytes) : Option LocalConfig := (Json.Tree.read? bytes).bind ofTree?

/-- The sizes in the order of their names. -/
def sizes (c : LocalConfig) : List UInt64 := [c.numCounters, c.maxCost, c.bufferItems, c.maxSize]

/-- A member of the JSON text. -/
def member (name : String) (size : UInt64) : Bytes :=
  Json.quote name ++ Ascii.colon :: Bytes.ofText (toString size.toNat)

/-- The compact JSON text, with every field. -/
def render (c : LocalConfig) : Bytes :=
  Ascii.openBrace ::
    [Ascii.comma].intercalate (List.zipWith member fieldNames c.sizes) ++ [Ascii.closeBrace]

/-- The description of a configuration. -/
def describe (c : LocalConfig) : String :=
  Text.record "LocalCacheConfig" (fieldNames.zip (c.sizes.map fun n => toString n.toNat))

end LocalConfig

/-- What a local cache counts about itself. -/
structure Metrics where
  hits : Nat
  misses : Nat
  /-- The entries that gave way to others. -/
  evictions : Nat
  /-- The entries that are there now. -/
  size : Nat
  deriving DecidableEq, Repr

end PodCache
