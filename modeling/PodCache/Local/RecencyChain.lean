import PodCache.Local.Arena
import PodCache.Number.Word
import Std.Data.TreeMap

/-!
# Recency chains

A recency chain holds entries with a cost each, in the order of their last use.  Its nodes live in
an arena and are linked to their neighbours by index, and a lookup table tells the index of the node
for a key, so that using, adding or removing an entry never walks the chain.  The chain keeps the
sum of the costs.

Following an index that is not live stops the program: such an operation has no result here.  The
sum of the costs is a word; whether it has ever been too great for one is noted (`overflowed`), for
a build of the program that checks its sums stops there, and one that does not goes on with the sum
modulo `2 ^ 64`.
-/

namespace PodCache

/-- An entry of a recency chain. -/
structure Entry (α : Type) where
  key : String
  value : α
  cost : Nat
  deriving DecidableEq, Repr

/-- A node of a recency chain: an entry and its neighbours. -/
structure RecencyChain.Node (α : Type) extends Entry α where
  /-- The entry that was used next after this one. -/
  newer : Option Arena.Index
  /-- The entry that was used last before this one. -/
  older : Option Arena.Index

/-- Linked entries in the order of their last use. -/
structure RecencyChain (α : Type) where
  nodes : Arena (RecencyChain.Node α)
  lookup : Std.TreeMap String Arena.Index
  newest : Option Arena.Index
  oldest : Option Arena.Index
  totalCost : Nat
  /-- Whether a sum of costs was too great for a word. -/
  overflowed : Bool

namespace RecencyChain

variable {α : Type}

/-- The chain without entries. -/
def empty : RecencyChain α := ⟨.empty, ∅, none, none, 0, false⟩

/-- The number of keys. -/
def size (c : RecencyChain α) : Nat := c.lookup.size

/-- Whether there is an entry for a key. -/
def contains (c : RecencyChain α) (key : String) : Bool := c.lookup.contains key

/-! ## Links -/

/-- Changes a node. -/
def modify (c : RecencyChain α) (i : Arena.Index) (f : Node α → Node α) :
    Option (RecencyChain α) :=
  (c.nodes.modify? i f).map fun nodes => { c with nodes }

/-- Makes `older` the neighbour on the old side of `i`, or the newest node when there is no `i`. -/
def setOlder (c : RecencyChain α) (i older : Option Arena.Index) : Option (RecencyChain α) :=
  match i with
  | some i => c.modify i fun n => { n with older }
  | none => some { c with newest := older }

/-- Makes `newer` the neighbour on the new side of `i`, or the oldest node when there is no `i`. -/
def setNewer (c : RecencyChain α) (i newer : Option Arena.Index) : Option (RecencyChain α) :=
  match i with
  | some i => c.modify i fun n => { n with newer }
  | none => some { c with oldest := newer }

/-- Joins the neighbours of a node to each other. -/
def unlink (c : RecencyChain α) (i : Arena.Index) : Option (RecencyChain α) := do
  let node ← c.nodes.get? i
  let c ← c.setOlder node.newer node.older
  c.setNewer node.older node.newer

/-- Links the node that was in front, if there was one, to the one that goes there. -/
def linkBack (c : RecencyChain α) (front : Option Arena.Index) (i : Arena.Index) :
    Option (RecencyChain α) :=
  match front with
  | some j => c.modify j fun n => { n with newer := some i }
  | none => some c

/-- Puts an unlinked node in front of the newest one. -/
def linkFront (c : RecencyChain α) (i : Arena.Index) : Option (RecencyChain α) := do
  let front := c.newest
  let c ← c.modify i fun n => { n with newer := none, older := front }
  let c ← { c with newest := some i }.linkBack front i
  return { c with oldest := c.oldest.or (some i) }

/-- Makes a node the newest one. -/
def moveToFront (c : RecencyChain α) (i : Arena.Index) : Option (RecencyChain α) :=
  if c.newest = some i then some c
  else do
    let c ← c.unlink i
    c.linkFront i

/-! ## Costs -/

/-- Adds a cost to the total. -/
def addCost (c : RecencyChain α) (cost : Nat) : RecencyChain α :=
  { c with
    totalCost := Word.add c.totalCost cost
    overflowed := c.overflowed || Word.overflows c.totalCost cost }

/-- Takes a cost off the total, which is at least zero. -/
def dropCost (c : RecencyChain α) (cost : Nat) : RecencyChain α :=
  { c with totalCost := c.totalCost - cost }

/-! ## Operations -/

/-- Adds an entry as the newest one.  When there is one for the key, its content is replaced and
returned. -/
def pushFront (c : RecencyChain α) (key : String) (value : α) (cost : Nat) :
    Option (Option α × RecencyChain α) :=
  match c.lookup[key]? with
  | some i => do
    let node ← c.nodes.get? i
    let c ← ((c.dropCost node.cost).addCost cost).modify i fun n => { n with value, cost }
    let c ← c.moveToFront i
    return (some node.value, c)
  | none => do
    let (i, nodes) := c.nodes.insert ⟨⟨key, value, cost⟩, none, none⟩
    let c := { c with nodes, lookup := c.lookup.insert key i }
    let c ← (c.addCost cost).linkFront i
    return (none, c)

/-- Uses the entry for a key, if there is one. -/
def touch (c : RecencyChain α) (key : String) : Option (Option α × RecencyChain α) :=
  match c.lookup[key]? with
  | none => some (none, c)
  | some i => do
    let c ← c.moveToFront i
    let node ← c.nodes.get? i
    return (some node.value, c)

/-- The key of the least recently used entry. -/
def peekBack (c : RecencyChain α) : Option (Option String) :=
  match c.oldest with
  | none => some none
  | some i => do
    let node ← c.nodes.get? i
    return some node.key

/-- Takes a node out. -/
def detach (c : RecencyChain α) (i : Arena.Index) : Option (Entry α × RecencyChain α) := do
  let c ← c.unlink i
  let (node, nodes) ← c.nodes.remove? i
  return (node.toEntry, { c with nodes }.dropCost node.cost)

/-- Takes out the least recently used entry. -/
def popBack (c : RecencyChain α) : Option (Option (Entry α × RecencyChain α)) :=
  match c.oldest with
  | none => some none
  | some i => do
    let (e, c) ← c.detach i
    return some (e, { c with lookup := c.lookup.erase e.key })

/-- Takes out the entry for a key. -/
def remove (c : RecencyChain α) (key : String) : Option (Option (Entry α × RecencyChain α)) :=
  match c.lookup[key]? with
  | none => some none
  | some i => do
    let (e, c) ← { c with lookup := c.lookup.erase key }.detach i
    return some (e, c)

/-- Takes out all entries. -/
def clear (c : RecencyChain α) : RecencyChain α :=
  { c with nodes := c.nodes.clear, lookup := ∅, newest := none, oldest := none, totalCost := 0 }

/-! ## Walks -/

/-- The nodes met from an index on by following a link, at most `fuel` of them. -/
def walk (c : RecencyChain α) (next : Node α → Option Arena.Index) :
    Nat → Option Arena.Index → List (Arena.Index × Entry α)
  | 0, _ => []
  | _ + 1, none => []
  | fuel + 1, some i =>
    match c.nodes.get? i with
    | none => []
    | some node => (i, node.toEntry) :: walk c next fuel (next node)

/-- The entries from the most to the least recently used.  The walk may take one step more than
there are keys, and ends before that. -/
def toList (c : RecencyChain α) : List (Entry α) :=
  (c.walk Node.older (c.size + 1) c.newest).map Prod.snd

/-- The entries from the least to the most recently used, found by the opposite links. -/
def toListOldestFirst (c : RecencyChain α) : List (Entry α) :=
  (c.walk Node.newer (c.size + 1) c.oldest).map Prod.snd

end RecencyChain

end PodCache
