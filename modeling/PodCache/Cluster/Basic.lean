import PodCache.Cluster.Shared
import PodCache.Pod.Builder
import PodCache.Pod.Fault

/-!
# Clusters

A cluster is a number of pods that share a store and a bus in memory.  Each pod has a handle of the
store and a synchronizer of its own; the pod with number `i` has the synchronizer with number `i`
and the handle with number `i + 1`.  Pods act one at a time, and what is sent on the bus waits until
it is delivered.
-/

namespace PodCache

/-- A place in a cluster. -/
structure Member (V : Type) where
  /-- The pod, unless it could not be built or has been dropped. -/
  pod : Option (Pod V)
  /-- What goes wrong with the pod's requests. -/
  faults : Faults := Faults.none

/-- Pods with a common store and a common bus. -/
structure Cluster (V : Type) where
  /-- A pod's synchronizer has one callback of each kind, which tells the pod. -/
  shared : Shared Unit := {}
  members : Array (Member V) := #[]

namespace Cluster

variable {V : Type}

/-- A cluster without pods, on a bus of some capacity. -/
def withCapacity (capacity : Nat) : Cluster V := { shared := { bus := .withCapacity capacity } }

/-- The pod with a number. -/
def pod? (c : Cluster V) (i : Nat) : Option (Pod V) := (c.members[i]?).bind Member.pod

/-- Changes a member. -/
def modify (c : Cluster V) (i : Nat) (f : Member V → Member V) : Cluster V :=
  { c with members := c.members.modify i f }

/-- How the world responds to the pod with a number. -/
def services (i : Nat) (faults : Faults) : Services (Shared Unit) :=
  (Shared.services (i + 1) i).disturbed faults

/-- Lets a pod take a step, and gives the result and the notes. -/
def act {α : Type} (c : Cluster V) (i : Nat)
    (step : Services (Shared Unit) → Act V (Shared Unit) α) :
    Option (α × List Note) × Cluster V :=
  match c.members[i]? with
  | some { pod := some pod, faults } =>
    let (result, scene) := step (services i faults) { pod, world := c.shared }
    let c := { c with shared := scene.world }
    (some (result, scene.notes), c.modify i fun m => { m with pod := some scene.pod })
  | _ => (none, c)

/-- What a new pod has been given, and what came of it. -/
structure Built where
  result : Except Halt Unit
  notes : List Note := []

/-- Makes a place with a store handle and a synchronizer of an identity and a channel. -/
def join (c : Cluster V) (member : Member V) (instanceId channel : String) : Cluster V :=
  let i := c.members.size
  let bus := ((c.shared.bus.synchronizer channel instanceId).2.listen i ()).listenErrors i ()
  { shared := { store := c.shared.store.clone.2, bus }, members := c.members.push member }

/-- Drops a pod.  Its synchronizer goes with it, unless something else holds it too. -/
def drop (c : Cluster V) (i : Nat) (keepSynchronizer : Bool) : Cluster V :=
  let c := c.modify i fun m => { m with pod := none }
  if keepSynchronizer then c
  else { c with shared := { c.shared with bus := c.shared.bus.drop i } }

/-- Builds a pod on a synchronizer of an identity and a channel, as the next member, and lets it
start. -/
def build (c : Cluster V) (chance : Chance) (b : Builder V) (instanceId channel : String)
    (faults : Faults) : Built × Cluster V :=
  let i := c.members.size
  match b.pod chance instanceId channel with
  | .error halt =>
    ({ result := .error halt }, (c.join { pod := none, faults } instanceId channel).drop i false)
  | .ok pod =>
    match (c.join { pod := some pod, faults } instanceId channel).act i Pod.start with
    | (some (.ok (), notes), c) => ({ result := .ok (), notes }, c)
    | (some (.error e, notes), c) => ({ result := .error (.refused e), notes }, c.drop i false)
    | (none, c) => ({ result := .ok () }, c)

/-- What goes wrong with one kind of a pod's requests from now on. -/
def setFault (c : Cluster V) (i : Nat) (point : Point) (fault : Fault) : Cluster V :=
  c.modify i fun m => { m with faults := m.faults.set point fault }

/-- Applies what waits in a pod's local cache. -/
def maintain (c : Cluster V) (i : Nat) : Cluster V :=
  c.modify i fun m => { m with pod := m.pod.map Pod.maintain }

/-- Sends a payload on the bus, and tells how many pods listen. -/
def publishRaw (c : Cluster V) (channel : String) (payload : Bytes) : Nat × Cluster V :=
  let (count, bus) := c.shared.bus.publishRaw channel payload
  (count, { c with shared := { c.shared with bus } })

/-- Sets the value of a key in the store, without any pod. -/
def storeSet (c : Cluster V) (key : String) (value : Bytes) : Except Error Unit × Cluster V :=
  let (result, store) := c.shared.store.set MemoryStore.firstHandle key value
  (result, { c with shared := { c.shared with store } })

/-- The value of a key in the store. -/
def storeGet (c : Cluster V) (key : String) : Except Error Bytes :=
  c.shared.store.get MemoryStore.firstHandle key

end Cluster

end PodCache
