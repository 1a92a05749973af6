import PodCache.Text.Quoted
import PodCache.Bytes

/-!
# Peer events

An instance that writes tells its peers by an event: whose key changed, who changed it, what is to
be done, and for a `set` possibly the new value in its stored form.
-/

namespace PodCache

/-- The key of an event that concerns every key. -/
def wildcardKey : String := "*"

/-- What the receiver of an event is asked to do.  Actions of later versions arrive as
`unknown`. -/
inductive Action where
  | set
  | invalidate
  | delete
  | clear
  | unknown (text : String)
  deriving DecidableEq, Repr

namespace Action

/-- The action's name on the wire. -/
def text : Action → String
  | .set => "set"
  | .invalidate => "invalidate"
  | .delete => "delete"
  | .clear => "clear"
  | .unknown text => text

/-- The action of a name. -/
def ofText (text : String) : Action :=
  if text = "set" then .set
  else if text = "invalidate" then .invalidate
  else if text = "delete" then .delete
  else if text = "clear" then .clear
  else .unknown text

/-- Whether the action is one that a receiver understands. -/
def isKnown : Action → Bool
  | .unknown _ => false
  | _ => true

/-- The description of an action. -/
def describe : Action → String
  | .set => "Set"
  | .invalidate => "Invalidate"
  | .delete => "Delete"
  | .clear => "Clear"
  | .unknown text => "Unknown(" ++ Text.quoted text ++ ")"

end Action

/-- A message from one instance to its peers. -/
structure Event where
  key : String
  /-- The identity of the instance that sent it. -/
  sender : String
  action : Action
  /-- The new value in its stored form. -/
  value : Option Bytes
  deriving DecidableEq, Repr

namespace Event

/-- Peers are to adopt a value. -/
def set (key sender : String) (value : Bytes) : Event := ⟨key, sender, .set, some value⟩

/-- Peers are to drop a key, which the store still holds. -/
def invalidate (key sender : String) : Event := ⟨key, sender, .invalidate, none⟩

/-- Peers are to drop a key, which has been deleted. -/
def delete (key sender : String) : Event := ⟨key, sender, .delete, none⟩

/-- Peers are to drop every key. -/
def clear (sender : String) : Event := ⟨wildcardKey, sender, .clear, none⟩

/-- The value that the event carries, empty when it carries none. -/
def payload (e : Event) : Bytes := e.value.getD []

/-- Whether the event names every key. -/
def isWildcard (e : Event) : Bool := e.key == wildcardKey

end Event

end PodCache
