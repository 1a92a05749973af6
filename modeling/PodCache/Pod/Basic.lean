import PodCache.Codec.Basic
import PodCache.Local.Cache
import PodCache.Pod.Log
import PodCache.Pod.Services
import PodCache.Stats

/-!
# Pods

A pod is one instance of the two-level cache: a local cache of its own in front of the store that
all pods share, a synchronizer that tells it about the writes of its peers, and counters.  This file
has its state and the steps that its operations are made of.

A step changes the pod, may send requests to the world outside, and leaves notes: the calls it made
to its collaborators, the failures it reported, and its log, in the order in which they came about.
-/

namespace PodCache

/-- Decides what value, if any, a peer's event puts into the local cache.  The decision may depend
on the events that were decided on before, the latest first. -/
abbrev Transform (V : Type) := List Event → Event → Option V

/-- What a pod is configured with. -/
structure Settings (V : Type) where
  instanceId : String
  codec : Codec V
  /-- The time limit for every request but those that close something. -/
  timeout : Duration
  /-- Whether a value that is set goes to the store. -/
  writeThrough : Bool
  /-- Whether failures that are not returned are reported to a handler. -/
  hasHandler : Bool
  transform : Option (Transform V)
  /-- The cost of an entry in the local cache, one unless this says otherwise. -/
  weigher : Option (String → V → Nat)
  /-- Whether log entries of the lowest level are written. -/
  debug : Bool

/-- A pod. -/
structure Pod (V : Type) where
  settings : Settings V
  localCache : LocalCache V
  stats : Stats := {}
  closed : Bool := false
  /-- The events that the transform has decided on, the latest first. -/
  transformed : List Event := []

/-- What a pod does that others can see. -/
inductive Note where
  /-- A lookup in the local cache, and whether it was a hit. -/
  | localGet (key : String) (found : Bool)
  /-- An entry offered to the local cache, and whether it was taken. -/
  | localSet (key : String) (cost : Nat) (accepted : Bool)
  | localDelete (key : String)
  | localClear
  | localClose
  | requested (r : Request)
  | transformed (key : String)
  /-- A failure told to the error handler. -/
  | reported (e : Error)
  | logged (entry : LogEntry)
  deriving DecidableEq, Repr

/-- A pod at work in its world. -/
structure Scene (V ω : Type) where
  pod : Pod V
  world : ω
  /-- The notes of the work so far, in order. -/
  notes : List Note := []

/-- A step of a pod. -/
abbrev Act (V ω : Type) := StateM (Scene V ω)

namespace Pod

variable {V ω : Type}

/-- The counters and the current number of local entries. -/
def snapshot (p : Pod V) : Snapshot := p.stats.snapshot p.localCache.metrics.size

/-- The description of a pod. -/
def describe (p : Pod V) : String :=
  Text.openRecord "SyncedCache"
    [("instance_id", Text.quoted p.settings.instanceId),
      ("write_through", Text.truth p.settings.writeThrough), ("closed", Text.truth p.closed)]

/-- Applies what waits in the local cache. -/
def maintain (p : Pod V) : Pod V := { p with localCache := p.localCache.maintain }

/-- The cost of an entry. -/
def cost (p : Pod V) (key : String) (value : V) : Nat :=
  match p.settings.weigher with
  | none => 1
  | some weigh => weigh key value

/-! ## Steps -/

/-- Changes the pod. -/
def change (f : Pod V → Pod V) : Act V ω Unit := modify fun s => { s with pod := f s.pod }

/-- Changes the counters. -/
def count (f : Stats → Stats) : Act V ω Unit := change fun p => { p with stats := f p.stats }

/-- Leaves a note. -/
def note (n : Note) : Act V ω Unit := modify fun s => { s with notes := s.notes ++ [n] }

/-- Writes to the log. -/
def log (entry : LogEntry) : Act V ω Unit := do
  if entry.level ≠ .debug ∨ (← get).pod.settings.debug then note (.logged entry)

/-- Tells a failure to the error handler, if there is one. -/
def report (e : Error) : Act V ω Unit := do
  if (← get).pod.settings.hasHandler then note (.reported e)

/-- Sends a request and waits for its result. -/
def request (services : Services ω) (r : Request) : Act V ω (Except Error Bytes) := do
  note (.requested r)
  modifyGet fun s =>
    let (result, world) := services.wait r s.world
    (result, { s with world })

/-- Sends a request and waits for its result until the time limit passes. -/
def requestWithin (services : Services ω) (r : Request) : Act V ω (Except Error Bytes) := do
  note (.requested r)
  modifyGet fun s =>
    let (result, world) := services.waitWithin s.pod.settings.timeout r s.world
    (result, { s with world })

/-- Looks a key up in the local cache. -/
def localGet (key : String) : Act V ω (Option V) := do
  let found ← modifyGet fun s =>
    let (found, localCache) := s.pod.localCache.get key
    (found, { s with pod := { s.pod with localCache } })
  note (.localGet key found.isSome)
  return found

/-- Offers an entry to the local cache. -/
def localSet (key : String) (value : V) : Act V ω Unit := do
  let cost := (← get).pod.cost key value
  let accepted ← modifyGet fun s =>
    let (accepted, localCache) := s.pod.localCache.set key value cost
    (accepted, { s with pod := { s.pod with localCache } })
  note (.localSet key cost accepted)

/-- Drops a key from the local cache. -/
def localDelete (key : String) : Act V ω Unit := do
  change fun p => { p with localCache := p.localCache.delete key }
  note (.localDelete key)

/-- Empties the local cache. -/
def localClear : Act V ω Unit := do
  change fun p => { p with localCache := p.localCache.clear }
  note .localClear

/-- Closes the local cache. -/
def localClose : Act V ω Unit := do
  change fun p => { p with localCache := p.localCache.close }
  note .localClose

/-- Lets the transform decide on an event. -/
def transformEvent (transform : Transform V) (e : Event) : Act V ω (Option V) := do
  let value := transform (← get).pod.transformed e
  change fun p => { p with transformed := e :: p.transformed }
  note (.transformed e.key)
  return value

end Pod

end PodCache
