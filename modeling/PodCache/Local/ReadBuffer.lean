import PodCache.Local.Sizing
import Std.Data.TreeMap

/-!
# Read buffer

Reads are counted in a buffer and handed to the admission policy later, all at once.  The buffer has
sixteen stripes; a key belongs to one of them by its hash.  A stripe counts a limited number of
different keys and drops the reads of further ones.  There are two sets of stripes: draining takes
what is in the one that is being written and goes on writing in the other.
-/

namespace PodCache

/-- The number of reads of each key in a stripe. -/
abbrev Stripe := Std.TreeMap String Nat

/-- Sixteen stripes. -/
abbrev StripeSet := Vector Stripe 16

/-- Counted reads that wait to be applied. -/
structure ReadBuffer where
  hash : String → UInt64
  /-- How many different keys a stripe counts. -/
  stripeCapacity : Nat
  /-- The set that reads are counted in. -/
  active : StripeSet
  /-- The other set. -/
  idle : StripeSet

namespace ReadBuffer

/-- Stripes without reads. -/
def noReads : StripeSet := Vector.replicate 16 ∅

/-- An empty buffer. -/
def new (hash : String → UInt64) (capacity : UInt64) : ReadBuffer where
  hash
  stripeCapacity := (Sizing.stripe capacity).toNat
  active := noReads
  idle := noReads

/-- The stripe of a key. -/
def stripeOf (b : ReadBuffer) (key : String) : Fin 16 := ⟨(b.hash key).toNat % 16, by omega⟩

/-- The greatest count. -/
def maxCount : Nat := UInt32.size - 1

/-- Counts one read in a stripe, unless the key is new and the stripe is full. -/
def recordIn (capacity : Nat) (stripe : Stripe) (key : String) : Stripe :=
  match stripe[key]? with
  | some n => stripe.insert key (min (n + 1) maxCount)
  | none => if stripe.size < capacity then stripe.insert key 1 else stripe

/-- Counts one read. -/
def record (b : ReadBuffer) (key : String) : ReadBuffer :=
  let i := b.stripeOf key
  { b with active := b.active.set i (recordIn b.stripeCapacity b.active[i] key) }

/-- Counts several reads of a key. -/
def recordMany (b : ReadBuffer) (key : String) : Nat → ReadBuffer
  | 0 => b
  | n + 1 => (b.record key).recordMany key n

/-- The counted reads of a set of stripes. -/
def reads (set : StripeSet) : List (String × Nat) := set.toList.flatMap fun stripe => stripe.toList

/-- Takes out the reads counted so far and goes on with the other set. -/
def drain (b : ReadBuffer) : List (String × Nat) × ReadBuffer :=
  (reads b.active, { b with active := b.idle, idle := noReads })

/-- Forgets all reads. -/
def clear (b : ReadBuffer) : ReadBuffer := { b with active := noReads, idle := noReads }

end ReadBuffer

end PodCache
