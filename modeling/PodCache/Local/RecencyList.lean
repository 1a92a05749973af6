import PodCache.Proofs.Local.RecencyChain

/-!
# Recency lists

A recency list is a recency chain that comes with the fact that its links run through its entries.
So no operation on it meets an index that is not live, and each has a result.
-/

namespace PodCache

/-- Entries in the order of their last use. -/
structure RecencyList (α : Type) where
  chain : RecencyChain α
  sound : chain.IsSound

namespace RecencyList

variable {α : Type}

/-- The list without entries. -/
def empty : RecencyList α := ⟨.empty, [], RecencyChain.holds_empty⟩

/-- The number of entries. -/
def size (l : RecencyList α) : Nat := l.chain.size

/-- Whether there is an entry for a key. -/
def contains (l : RecencyList α) (key : String) : Bool := l.chain.contains key

/-- The sum of the costs, modulo `2 ^ 64`. -/
def totalCost (l : RecencyList α) : Nat := l.chain.totalCost

/-- Whether the sum of the costs was ever too great for a word. -/
def overflowed (l : RecencyList α) : Bool := l.chain.overflowed

/-! ## Operations -/

/-- The result of an operation that is known to have one. -/
def resultOf {β : Type} {P : β → Prop} :
    (result : Option β) → (∃ r, result = some r ∧ P r) → { r // result = some r ∧ P r }
  | some r, h => ⟨r, rfl, h.elim fun _ hr => Option.some.inj hr.1 ▸ hr.2⟩
  | none, h => absurd h nofun

/-- Adds an entry as the newest one.  When there is one for the key, its content is replaced and
returned. -/
def pushFront (l : RecencyList α) (key : String) (value : α) (cost : Nat) :
    Option α × RecencyList α :=
  let r := resultOf _ (l.sound.exists_pushFront key value cost)
  (r.val.1, ⟨r.val.2, r.property.2⟩)

/-- Uses the entry for a key, if there is one. -/
def touch (l : RecencyList α) (key : String) : Option α × RecencyList α :=
  let r := resultOf _ (l.sound.exists_touch key)
  (r.val.1, ⟨r.val.2, r.property.2⟩)

/-- The key of the least recently used entry. -/
def peekBack (l : RecencyList α) : Option String := l.chain.peekBack.get l.sound.isSome_peekBack

/-- Takes out the least recently used entry. -/
def popBack (l : RecencyList α) : Option (Entry α × RecencyList α) :=
  let r := resultOf _ l.sound.exists_popBack
  match h : r.val with
  | none => none
  | some (e, chain) => some (e, ⟨chain, (r.property.2 (e, chain) h).1⟩)

/-- Takes out the entry for a key. -/
def remove (l : RecencyList α) (key : String) : Option (Entry α × RecencyList α) :=
  let r := resultOf _ (l.sound.exists_remove key)
  match h : r.val with
  | none => none
  | some (e, chain) => some (e, ⟨chain, r.property.2 (e, chain) h⟩)

/-- Takes out all entries. -/
def clear (l : RecencyList α) : RecencyList α := ⟨l.chain.clear, [], l.chain.holds_clear⟩

/-! ## Views -/

/-- The entries from the most to the least recently used. -/
def toList (l : RecencyList α) : List (Entry α) := l.chain.toList

/-- The entries from the least to the most recently used, found by the opposite links. -/
def toListOldestFirst (l : RecencyList α) : List (Entry α) := l.chain.toListOldestFirst

/-! ## Operations of the chain -/

theorem chain_pushFront (l : RecencyList α) (key : String) (value : α) (cost : Nat) :
    l.chain.pushFront key value cost =
      some ((l.pushFront key value cost).1, (l.pushFront key value cost).2.chain) :=
  (resultOf _ (l.sound.exists_pushFront key value cost)).property.1

theorem chain_touch (l : RecencyList α) (key : String) :
    l.chain.touch key = some ((l.touch key).1, (l.touch key).2.chain) :=
  (resultOf _ (l.sound.exists_touch key)).property.1

theorem chain_peekBack (l : RecencyList α) : l.chain.peekBack = some l.peekBack :=
  (Option.some_get l.sound.isSome_peekBack).symm

theorem chain_popBack (l : RecencyList α) :
    l.chain.popBack = some (l.popBack.map fun p => (p.1, p.2.chain)) := by
  rw [(resultOf _ l.sound.exists_popBack).property.1, popBack]
  split
  · rename_i h
    exact congrArg some h
  · rename_i e chain h
    exact congrArg some h

theorem chain_remove (l : RecencyList α) (key : String) :
    l.chain.remove key = some ((l.remove key).map fun p => (p.1, p.2.chain)) := by
  rw [(resultOf _ (l.sound.exists_remove key)).property.1, remove]
  split
  · rename_i h
    exact congrArg some h
  · rename_i e chain h
    exact congrArg some h

/-- Taking out the oldest entry makes the list shorter. -/
theorem size_popBack_lt {l l' : RecencyList α} {e : Entry α} (h : l.popBack = some (e, l')) :
    l'.size < l.size := by
  have hr := (resultOf _ l.sound.exists_popBack).property
  have hc := l.chain_popBack
  rw [hr.1, h] at hc
  exact (hr.2 (e, l'.chain) (Option.some.inj hc)).2

end RecencyList

end PodCache
