/-!
# What is left to chance

Hash functions, the order in which a hash table gives out its content and random draws are not the
cache's to decide.  `Chance` collects them, so that a cache is a function of its requests and of
them, and a statement about a cache can quantify over them.
-/

namespace PodCache

/-- An order in which counted keys are handed out: some permutation of them. -/
structure Shuffle where
  apply : List (String × Nat) → List (String × Nat)
  perm : ∀ reads, (apply reads).Perm reads

/-- The order that is already there. -/
def Shuffle.keep : Shuffle := ⟨id, fun _ => List.Perm.refl _⟩

/-- Everything about a run that the cache does not decide. -/
structure Chance where
  /-- The hash function of each row of a frequency sketch. -/
  rowHash : Fin 4 → String → UInt64
  /-- The hash function that spreads keys over the stripes of a read buffer. -/
  stripeHash : String → UInt64
  /-- The order in which the reads of the `n`-th maintenance pass are applied. -/
  shuffle : Nat → Shuffle
  /-- The `n`-th random draw. -/
  draw : Nat → Nat

namespace Chance

/-- A choice that serves: four hash functions that differ by a seed, reads in the order of their
keys, and draws from a linear congruence. -/
def standard : Chance where
  rowHash row key := mixHash (hash key) (hash (row.val + 1))
  stripeHash key := hash key
  shuffle _ := Shuffle.keep
  draw n := (n * 6364136223846793005 + 1442695040888963407) / 65536

end Chance

end PodCache
