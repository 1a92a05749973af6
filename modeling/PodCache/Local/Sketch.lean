import PodCache.Local.Chance
import PodCache.Local.Sizing

/-!
# Frequency sketch

How often a key has been used is estimated by four rows of small counters.  Each row has a hash
function that assigns a counter to every key; using a key adds one to its counter in each row, and
the estimate is the least of the four, which other keys can only have made too large.  Counters stop
at 255.  After a sample of increments all counters are halved, so that old popularity fades.
-/

namespace PodCache

/-- Four rows of counters in one array, one row after the other. -/
structure Sketch where
  hash : Fin 4 → String → UInt64
  /-- The number of counters in a row. -/
  width : Nat
  counters : Array UInt8
  /-- The increments since the last halving. -/
  increments : Nat
  /-- The number of increments after which the counters are halved. -/
  sample : Nat

namespace Sketch

/-- A sketch of zero counters. -/
def new (hash : Fin 4 → String → UInt64) (numCounters sampleSize : UInt64) : Sketch where
  hash
  width := Sizing.rowWidth numCounters
  counters := Array.replicate (4 * Sizing.rowWidth numCounters) 0
  increments := 0
  sample := max sampleSize.toNat 1

/-- The place of a key's counter in a row. -/
def slot (s : Sketch) (row : Fin 4) (key : String) : Nat := (s.hash row key).toNat % s.width

/-- The place of a key's counter in the array of all rows. -/
def place (s : Sketch) (row : Fin 4) (key : String) : Nat := row.val * s.width + s.slot row key

/-- The key's counter in a row. -/
def counter (s : Sketch) (row : Fin 4) (key : String) : UInt8 :=
  s.counters.getD (s.place row key) 0

/-- One more, up to 255. -/
def bump (n : UInt8) : UInt8 := if n = 255 then 255 else n + 1

/-- Adds one to the key's counter in a row. -/
def bumpRow (key : String) (s : Sketch) (row : Fin 4) : Sketch :=
  { s with counters := s.counters.modify (s.place row key) bump }

/-- Halves every counter, rounding down. -/
def age (s : Sketch) : Sketch :=
  { s with counters := s.counters.map (· / 2), increments := 0 }

/-- Counts one use of a key. -/
def increment (s : Sketch) (key : String) : Sketch :=
  let counted := (List.finRange 4).foldl (bumpRow key) s
  let next := { counted with increments := counted.increments + 1 }
  if next.sample ≤ next.increments then next.age else next

/-- Counts several uses of a key. -/
def incrementMany (s : Sketch) (key : String) : Nat → Sketch
  | 0 => s
  | n + 1 => (s.increment key).incrementMany key n

/-- The estimated number of uses of a key. -/
def estimate (s : Sketch) (key : String) : UInt8 :=
  min (min (s.counter 0 key) (s.counter 1 key)) (min (s.counter 2 key) (s.counter 3 key))

/-- Forgets every use. -/
def clear (s : Sketch) : Sketch :=
  { s with counters := s.counters.map fun _ => 0, increments := 0 }

end Sketch

end PodCache
