import PodCache.Local.RecencyList
import PodCache.Local.Sketch

/-!
# Admission policy

A frequency cache leaves to a policy which keys it keeps.  The policy tracks keys with their costs
in three segments, each in the order of last use.  A new key starts in a small *window*.  What
overflows the window is a candidate for the main segment: there it enters *probation*, unless the
main segment is full and the candidate is used less often, by the estimate of a sketch, than the key
that would leave next; then it is rejected.  A key on probation that is used again gets
*protection*; what overflows the protected part goes back on probation.

Costs and their sums are words, as in the segments.  Whether a sum over several segments, or over
the keys that are evicted, was too great for a word is noted as well.
-/

namespace PodCache

/-- The keys that an admission policy tracks, by segment. -/
structure Admission where
  window : RecencyList Unit
  probation : RecencyList Unit
  protection : RecencyList Unit
  sketch : Sketch
  windowCapacity : Nat
  /-- The capacity of probation and protection together. -/
  mainCapacity : Nat
  protectionCapacity : Nat
  /-- Whether a sum of costs outside the segments was too great for a word. -/
  sumOverflowed : Bool

namespace Admission

/-- A policy that tracks no keys. -/
def new (hash : Fin 4 → String → UInt64) (maxCost numCounters : UInt64) : Admission where
  window := .empty
  probation := .empty
  protection := .empty
  sketch := .new hash numCounters (Sizing.sample numCounters)
  windowCapacity := (Sizing.window maxCost).toNat
  mainCapacity := (Sizing.mainSegment maxCost).toNat
  protectionCapacity := (Sizing.protection maxCost).toNat
  sumOverflowed := false

/-! ## Costs -/

/-- The cost of the keys in the main segment. -/
def mainCost (p : Admission) : Nat := Word.add p.probation.totalCost p.protection.totalCost

/-- Whether the cost of the main segment and of a candidate is too great for a word. -/
def mainOverflows (p : Admission) (cost : Nat) : Bool :=
  Word.overflows p.probation.totalCost p.protection.totalCost || Word.overflows p.mainCost cost

/-- The cost of all tracked keys. -/
def totalCost (p : Admission) : Nat :=
  Word.add (Word.add p.window.totalCost p.probation.totalCost) p.protection.totalCost

/-- Whether the cost of all tracked keys is too great for a word. -/
def totalOverflows (p : Admission) : Bool :=
  Word.overflows p.window.totalCost p.probation.totalCost ||
    Word.overflows (Word.add p.window.totalCost p.probation.totalCost) p.protection.totalCost

/-- Notes whether a sum was too great for a word. -/
def noteSum (p : Admission) (overflows : Bool) : Admission :=
  { p with sumOverflowed := p.sumOverflowed || overflows }

/-- Whether any sum of costs was too great for a word. -/
def overflowed (p : Admission) : Bool :=
  p.sumOverflowed || p.window.overflowed || p.probation.overflowed || p.protection.overflowed

/-! ## Keys -/

/-- Whether a key is tracked. -/
def contains (p : Admission) (key : String) : Bool :=
  p.window.contains key || p.probation.contains key || p.protection.contains key

/-- The key that would leave the main segment next. -/
def mainVictim (p : Admission) : Option String := p.probation.peekBack.or p.protection.peekBack

/-! ## Moving between segments -/

/-- Puts the oldest protected keys back on probation until the rest fits. -/
def demoteOverflow (p : Admission) : Admission :=
  if p.protectionCapacity < p.protection.totalCost then
    match _ : p.protection.popBack with
    | none => p
    | some (e, rest) =>
      demoteOverflow
        { p with protection := rest, probation := (p.probation.pushFront e.key () e.cost).2 }
  else p
termination_by p.protection.size
decreasing_by exact RecencyList.size_popBack_lt ‹_›

/-- Protects a key, as the most recently used one. -/
def protect (p : Admission) (key : String) (cost : Nat) : Admission :=
  demoteOverflow { p with protection := (p.protection.pushFront key () cost).2 }

/-- Whether a candidate may enter the main segment: frequencies compete only when it is full. -/
def accepts (p : Admission) (candidate : Entry Unit) : Bool :=
  if Word.add p.mainCost candidate.cost ≤ p.mainCapacity then true
  else
    match p.mainVictim with
    | some victim => p.sketch.estimate victim ≤ p.sketch.estimate candidate.key
    | none => true

/-- The policy when the oldest key of the window has been taken out to compete for a place. -/
def competing (p : Admission) (rest : RecencyList Unit) (cost : Nat) : Admission :=
  { p with window := rest }.noteSum (p.mainOverflows cost)

/-- Moves the oldest keys out of the window until the rest fits.  Those that the main segment does
not accept are returned and no longer tracked. -/
def drainWindow (p : Admission) : List String × Admission :=
  if p.windowCapacity < p.window.totalCost then
    match _ : p.window.popBack with
    | none => ([], p)
    | some (candidate, rest) =>
      if p.accepts candidate then
        drainWindow
          { p.competing rest candidate.cost with
            probation := (p.probation.pushFront candidate.key () candidate.cost).2 }
      else
        let (rejected, q) := drainWindow (p.competing rest candidate.cost)
        (candidate.key :: rejected, q)
  else ([], p)
termination_by p.window.size
decreasing_by all_goals exact RecencyList.size_popBack_lt ‹_›

/-! ## Requests -/

/-- The greatest number of reads of a key that are counted at once. -/
def maxReads : Nat := 255

/-- Counts reads of a key and treats it as used. -/
def recordReads (p : Admission) (key : String) (count : Nat) : Admission :=
  let p := { p with sketch := p.sketch.incrementMany key (min count maxReads) }
  if p.window.contains key then { p with window := (p.window.touch key).2 }
  else if p.protection.contains key then { p with protection := (p.protection.touch key).2 }
  else
    match p.probation.remove key with
    | some (e, rest) => { p with probation := rest }.protect key e.cost
    | none => p

/-- Offers a written key.  The keys that had to give way in turn are returned. -/
def offer (p : Admission) (key : String) (cost : Nat) : List String × Admission :=
  let p := { p with sketch := p.sketch.increment key }
  if p.protection.contains key then ([], p.protect key cost)
  else
    match p.probation.remove key with
    | some (_, rest) => ([], { p with probation := rest }.protect key cost)
    | none => drainWindow { p with window := (p.window.pushFront key () cost).2 }

/-- Stops tracking a key.  Its cost is returned if it was tracked. -/
def remove (p : Admission) (key : String) : Option Nat × Admission :=
  match p.window.remove key with
  | some (e, rest) => (some e.cost, { p with window := rest })
  | none =>
    match p.probation.remove key with
    | some (e, rest) => (some e.cost, { p with probation := rest })
    | none =>
      match p.protection.remove key with
      | some (e, rest) => (some e.cost, { p with protection := rest })
      | none => (none, p)

/-- Takes the oldest entries out of a segment until the cost that has been freed, with what was
freed before, is enough or none are left. -/
def free (l : RecencyList Unit) (need freed : Nat) : List (Entry Unit) × RecencyList Unit :=
  if freed < need then
    match _ : l.popBack with
    | none => ([], l)
    | some (e, rest) =>
      let (victims, left) := free rest need (Word.add freed e.cost)
      (e :: victims, left)
  else ([], l)
termination_by l.size
decreasing_by exact RecencyList.size_popBack_lt ‹_›

/-- The cost that has been freed when more entries are taken out. -/
def freedBy (freed : Nat) (victims : List (Entry Unit)) : Nat :=
  victims.foldl (fun freed e => Word.add freed e.cost) freed

/-- Whether the cost that is freed gets too great for a word on the way. -/
def freeingOverflows (freed : Nat) : List (Entry Unit) → Bool
  | [] => false
  | e :: victims => Word.overflows freed e.cost || freeingOverflows (Word.add freed e.cost) victims

/-- Stops tracking keys until a cost is freed: first those on probation, then the protected ones,
then those in the window, the least recently used ones first. -/
def evict (p : Admission) (need : Nat) : List (Entry Unit) × Admission :=
  let (fromProbation, probation) := free p.probation need 0
  let freed := freedBy 0 fromProbation
  let (fromProtection, protection) := free p.protection need freed
  let freed := freedBy freed fromProtection
  let (fromWindow, window) := free p.window need freed
  let victims := fromProbation ++ fromProtection ++ fromWindow
  (victims, { p with probation, protection, window }.noteSum (freeingOverflows 0 victims))

/-- Stops tracking every key and forgets their use. -/
def clear (p : Admission) : Admission :=
  { p with
    window := p.window.clear
    probation := p.probation.clear
    protection := p.protection.clear
    sketch := p.sketch.clear }

end Admission

end PodCache
