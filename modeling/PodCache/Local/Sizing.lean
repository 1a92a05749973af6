import PodCache.Number.Binary64
import PodCache.Number.Word

/-!
# Derived sizes

The parts of a frequency cache get their sizes from its configuration.  Sizes are 64-bit words, some
operations on which saturate, and shares of a capacity are computed in binary floating point and
rounded to the nearest word.
-/

namespace PodCache.Sizing

/-- The greatest word. -/
def maxWord : Nat := UInt64.size - 1

/-- A whole number as a word, the greatest one when it does not fit. -/
def saturate (n : Nat) : UInt64 := UInt64.ofNat (min n maxWord)

/-- The difference of two words, zero when it is negative. -/
def saturatingSub (a b : UInt64) : UInt64 := if b ≤ a then a - b else 0

/-- The nearest word to a share of a capacity; a tie goes up. -/
def share (capacity : UInt64) (fraction : Binary64) : UInt64 :=
  saturate ((Binary64.ofNat capacity.toNat).mul fraction).round

/-- One in a hundred. -/
def windowShare : Binary64 := Binary64.ofRatio 1 100

/-- One in five. -/
def probationShare : Binary64 := Binary64.ofRatio 1 5

/-- The capacity of the admission window: about one hundredth, at least one unless there is no
capacity at all. -/
def window (maxCost : UInt64) : UInt64 :=
  if maxCost = 0 then 0 else max (share maxCost windowShare) 1

/-- The capacity of the main segment: what the window leaves. -/
def mainSegment (maxCost : UInt64) : UInt64 := saturatingSub maxCost (window maxCost)

/-- The capacity of the protected part of the main segment: what is left by the probationary share,
which is at least one. -/
def protection (maxCost : UInt64) : UInt64 :=
  let capacity := mainSegment maxCost
  if capacity = 0 then 0
  else saturatingSub capacity (max (share capacity probationShare) 1)

/-- The number of increments after which counts are halved: ten for each counter, and at least a
thousand. -/
def sample (numCounters : UInt64) : UInt64 := saturate ((max numCounters 100).toNat * 10)

/-- The number of counters in each of the four rows: a power of two, at least 64. -/
def rowWidth (numCounters : UInt64) : Nat := leastPowerOfTwo (max (numCounters / 4) 64).toNat

/-- The number of reads that a cache has room for, sixty-four for each write that may wait.  There
is none when the product is not a word: the program panics. -/
def readCapacity? (bufferItems : UInt64) : Option UInt64 :=
  if (max bufferItems 1).toNat * 64 < UInt64.size then some (max bufferItems 1 * 64) else none

/-- The number of keys in each of the sixteen stripes of a read buffer. -/
def stripe (capacity : UInt64) : UInt64 := max (capacity / 16) 8

end PodCache.Sizing
