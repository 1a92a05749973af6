import PodCache.Pod.Basic

/-!
# Transforms

Ready-made decisions on the values that peers announce.
-/

namespace PodCache.Transform

variable {V : Type}

/-- Takes no value. -/
def never : Transform V := fun _ _ => none

/-- Takes every value that can be read. -/
def reading (read : Bytes → Option V) : Transform V := fun _ e => read e.payload

/-- Takes no value of a private key, and any other as `accept` says. -/
def skippingPrivate (accept : Event → Option V) : Transform V :=
  fun _ e => if "private:".isPrefixOf e.key then none else accept e

/-- The highest version among the values that events announced for a key. -/
def highest (read : Bytes → Option V) (version : V → Nat) (key : String) (events : List Event) :
    Nat :=
  events.foldl (fun top e =>
    if e.key = key then max top (((read e.payload).map version).getD 0) else top) 0

/-- Takes a value unless a higher version of it has been seen. -/
def newest (read : Bytes → Option V) (version : V → Nat) : Transform V :=
  fun earlier e =>
    (read e.payload).filter fun value => highest read version e.key earlier ≤ version value

end PodCache.Transform
