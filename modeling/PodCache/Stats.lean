import PodCache.Number.Binary64
import PodCache.Text.Record

/-!
# Statistics of a cache

What an instance counts about its lookups and about the events of its peers.  The hit ratio is the
fraction of lookups that were answered without leaving the process.
-/

namespace PodCache

/-- The counters of an instance. -/
structure Stats where
  /-- Lookups answered by the local cache. -/
  localHits : Nat := 0
  localMisses : Nat := 0
  /-- Local misses answered by the store. -/
  remoteHits : Nat := 0
  /-- Local misses that the store did not answer either. -/
  remoteMisses : Nat := 0
  /-- Peer events that dropped local entries. -/
  invalidations : Nat := 0
  deriving DecidableEq, Repr

/-- The counters at one moment, with the number of local entries. -/
structure Snapshot extends Stats where
  localSize : Nat := 0
  deriving DecidableEq, Repr

/-- The counters with the current number of local entries. -/
def Stats.snapshot (s : Stats) (localSize : Nat) : Snapshot := { toStats := s, localSize }

namespace Snapshot

/-- The number of lookups, as a 64-bit word. -/
def lookups (s : Snapshot) : Nat := (s.localHits + s.localMisses) % UInt64.size

/-- The fraction of lookups that were local hits, zero when there were none. -/
def hitRatio (s : Snapshot) : Binary64 :=
  if s.lookups = 0 then Binary64.ofNat 0
  else (Binary64.ofNat s.localHits).div (Binary64.ofNat s.lookups)

/-- The hit ratio in percent, with two decimal places. -/
def hitPercentage (s : Snapshot) : String :=
  (s.hitRatio.mul (Binary64.ofNat 100)).twoPlaces ++ "%"

/-- The description of a snapshot. -/
def describe (s : Snapshot) : String :=
  Text.record "StatsSnapshot"
    [("local_hits", toString s.localHits), ("local_misses", toString s.localMisses),
      ("local_hit_ratio", Text.quoted s.hitPercentage), ("remote_hits", toString s.remoteHits),
      ("remote_misses", toString s.remoteMisses), ("invalidations", toString s.invalidations),
      ("local_size", toString s.localSize)]

end Snapshot

end PodCache
