import PodCache.Bytes
import PodCache.Error
import Std.Data.TreeMap

/-!
# The store in memory

The values that all instances share, under their keys.  Each user of the store has a handle; closing
a handle leaves the content and the other handles as they are.
-/

namespace PodCache

/-- A store with its handles, which are known by the order in which they were made. -/
structure MemoryStore where
  contents : Std.TreeMap String Bytes := {}
  /-- Whether each handle is closed.  The first handle is there from the start. -/
  closed : Array Bool := #[false]

namespace MemoryStore

/-- The handle that every store has. -/
def firstHandle : Nat := 0

/-- Whether a handle can be used. -/
def isOpen (s : MemoryStore) (handle : Nat) : Bool := s.closed[handle]? == some false

/-- The number of keys that have a value. -/
def size (s : MemoryStore) : Nat := s.contents.size

/-- Another handle. -/
def clone (s : MemoryStore) : Nat × MemoryStore :=
  (s.closed.size, { s with closed := s.closed.push false })

/-- The value of a key. -/
def get (s : MemoryStore) (handle : Nat) (key : String) : Except Error Bytes :=
  if s.isOpen handle then
    match s.contents[key]? with
    | some value => .ok value
    | none => .error .notFound
  else .error .closed

/-- Changes the content through a handle. -/
def update (s : MemoryStore) (handle : Nat)
    (f : Std.TreeMap String Bytes → Std.TreeMap String Bytes) : Except Error Unit × MemoryStore :=
  if s.isOpen handle then (.ok (), { s with contents := f s.contents }) else (.error .closed, s)

/-- Sets the value of a key. -/
def set (s : MemoryStore) (handle : Nat) (key : String) (value : Bytes) :
    Except Error Unit × MemoryStore := s.update handle (·.insert key value)

/-- Removes a key. -/
def delete (s : MemoryStore) (handle : Nat) (key : String) : Except Error Unit × MemoryStore :=
  s.update handle (·.erase key)

/-- Removes every key. -/
def clear (s : MemoryStore) (handle : Nat) : Except Error Unit × MemoryStore :=
  s.update handle fun _ => {}

/-- Closes a handle. -/
def close (s : MemoryStore) (handle : Nat) : MemoryStore :=
  { s with closed := s.closed.setIfInBounds handle true }

end MemoryStore

end PodCache
