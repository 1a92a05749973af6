import PodCache.Local.FrequencyCache
import PodCache.Local.RandomCache
import PodCache.Local.RecencyCache

/-!
# Local caches

An instance keeps values in its own memory in a local cache, of one of three kinds.  They answer the
same requests; they differ in what they drop to stay within their bound.
-/

namespace PodCache

/-- The kinds of local caches. -/
inductive LocalCache.Kind where
  | recency
  | random
  | frequency
  deriving DecidableEq, Repr

/-- A local cache of any kind. -/
inductive LocalCache (V : Type) where
  | recency (cache : RecencyCache V)
  | random (cache : RandomCache V)
  | frequency (cache : FrequencyCache V)

namespace LocalCache

variable {V : Type}

/-- An empty cache of a kind. -/
def new (chance : Chance) (kind : Kind) (config : LocalConfig) : Except Halt (LocalCache V) :=
  match kind with
  | .recency => ((RecencyCache.new config.maxSize).map .recency).mapError .refused
  | .random => ((RandomCache.new chance.draw config.maxSize).map .random).mapError .refused
  | .frequency => (FrequencyCache.new chance config).map .frequency

/-- Looks a key up. -/
def get (c : LocalCache V) (key : String) : Option V × LocalCache V :=
  match c with
  | .recency c => (c.get key).map id .recency
  | .random c => (c.get key).map id .random
  | .frequency c => (c.get key).map id .frequency

/-- Sets the value of a key with its cost, and tells whether the entry was taken. -/
def set (c : LocalCache V) (key : String) (value : V) (cost : Nat) : Bool × LocalCache V :=
  match c with
  | .recency c => (true, .recency (c.set key value))
  | .random c => (true, .random (c.set key value))
  | .frequency c => (c.set key value cost).map id .frequency

/-- Drops the entry of a key. -/
def delete (c : LocalCache V) (key : String) : LocalCache V :=
  match c with
  | .recency c => .recency (c.delete key)
  | .random c => .random (c.delete key)
  | .frequency c => .frequency (c.delete key)

/-- Drops all entries. -/
def clear (c : LocalCache V) : LocalCache V :=
  match c with
  | .recency c => .recency c.clear
  | .random c => .random c.clear
  | .frequency c => .frequency c.clear

/-- Drops all entries; a frequency cache takes no more of them. -/
def close (c : LocalCache V) : LocalCache V :=
  match c with
  | .recency c => .recency c.clear
  | .random c => .random c.clear
  | .frequency c => .frequency c.close

/-- Applies what waits; only a frequency cache lets anything wait. -/
def maintain (c : LocalCache V) : LocalCache V :=
  match c with
  | .recency c => .recency c
  | .random c => .random c
  | .frequency c => .frequency c.maintain

/-- The cache's counts. -/
def metrics (c : LocalCache V) : Metrics :=
  match c with
  | .recency c => c.metrics
  | .random c => c.metrics
  | .frequency c => c.metrics

/-- The description of a cache, for the kinds that have one. -/
def describe? (c : LocalCache V) : Option String :=
  match c with
  | .recency c => some c.describe
  | .random _ => none
  | .frequency c => some c.describe

end LocalCache

end PodCache
