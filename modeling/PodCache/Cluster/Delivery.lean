import PodCache.Cluster.Basic

/-!
# Delivery

Payloads that were sent on the bus of a cluster wait for every pod that listens.  They are delivered
to one pod at a time, in the order in which they were sent; the pod reacts by changing its local
cache.
-/

namespace PodCache.Cluster

variable {V : Type}

/-- What a pod does about something that happens on its synchronizer.  A pod that is gone is told
nothing, but the synchronizer still writes to its log. -/
def react (c : Cluster V) (i : Nat) (o : Occurrence Unit) : List Note × Cluster V :=
  match o with
  | .event () e =>
    let (done, c) := c.act i fun _ => Pod.handleEvent e
    ((done.map Prod.snd).getD [], c)
  | .failure () e =>
    let (done, c) := c.act i fun _ => Pod.report e
    ((done.map Prod.snd).getD [], c)
  | .undecodable e => ([.logged (.eventUndecodable e)], c)
  | .lagged skipped =>
    let channel := ((c.shared.bus.synchronizers[i]?).map Synchronizer.channel).getD ""
    ([.logged (.lagged channel skipped)], c)

/-- What a pod does about several occurrences in turn. -/
def reactAll (c : Cluster V) (i : Nat) : List (Occurrence Unit) → List Note × Cluster V
  | [] => ([], c)
  | o :: os =>
    let (first, c) := c.react i o
    let (rest, c) := c.reactAll i os
    (first ++ rest, c)

/-- Delivers to a pod at most `count` of the payloads that wait for it. -/
def deliver (c : Cluster V) (i count : Nat) : List Note × Cluster V :=
  let (occurrences, bus) := c.shared.bus.take i count
  { c with shared := { c.shared with bus } }.reactAll i occurrences

/-- The number of payloads that wait for a pod. -/
def pending (c : Cluster V) (i : Nat) : Nat := c.shared.bus.pending i

/-- Delivers to each of several pods in turn all that waits; the notes come with the number of
their pod. -/
def deliverAll (c : Cluster V) : List Nat → List (Nat × Note) × Cluster V
  | [] => ([], c)
  | i :: is =>
    let (first, c) := c.deliver i (c.pending i)
    let (rest, c) := c.deliverAll is
    (first.map (i, ·) ++ rest, c)

/-- Delivers everything that waits. -/
def settle (c : Cluster V) : List (Nat × Note) × Cluster V :=
  c.deliverAll (List.range c.members.size)

end PodCache.Cluster
