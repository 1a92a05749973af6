import PodCache.Event.Wire
import PodCache.Text.Record

/-!
# Listeners

Each participant of a bus has a registry of callbacks: some are told the events of peers, some the
failures of the receiving side.  An event runs the callbacks that are registered when it arrives, in
the order of their registration; a callback may register further ones, which see later events only.
Events that the participant sent itself run nothing.

What a callback does is not the registry's concern, so callbacks are names of a type `κ`, and
dispatching gives the list of what happened.
-/

namespace PodCache

/-- A callback for events, and the callbacks that it registers each time it runs. -/
structure Callback (κ : Type) where
  name : κ
  registers : List κ := []
  deriving DecidableEq, Repr

/-- What happens on the receiving side of a bus. -/
inductive Occurrence (κ : Type) where
  /-- A callback is told an event. -/
  | event (callback : κ) (e : Event)
  /-- A callback is told a failure. -/
  | failure (callback : κ) (e : Error)
  /-- A payload that is no event is dropped. -/
  | undecodable (e : Error)
  /-- Payloads are lost, as too many were sent in the meantime. -/
  | lagged (skipped : Nat)
  deriving DecidableEq, Repr

/-- The callbacks of one participant, in the order of their registration. -/
structure Listeners (κ : Type) where
  instanceId : String
  onEvent : List (Callback κ) := []
  onError : List κ := []
  deriving DecidableEq, Repr

namespace Listeners

variable {κ : Type}

/-- Registers a callback for events. -/
def listen (l : Listeners κ) (c : Callback κ) : Listeners κ :=
  { l with onEvent := l.onEvent ++ [c] }

/-- Registers a callback for failures. -/
def listenErrors (l : Listeners κ) (name : κ) : Listeners κ :=
  { l with onError := l.onError ++ [name] }

/-- Runs one callback, which may register others. -/
def run (e : Event) (state : List (Occurrence κ) × Listeners κ) (c : Callback κ) :
    List (Occurrence κ) × Listeners κ :=
  (state.1 ++ [.event c.name e], c.registers.foldl (fun l name => l.listen { name }) state.2)

/-- Tells an event to the callbacks that are registered now, unless the participant sent it. -/
def dispatch (l : Listeners κ) (e : Event) : List (Occurrence κ) × Listeners κ :=
  if e.sender = l.instanceId then ([], l) else l.onEvent.foldl (run e) ([], l)

/-- Tells a failure to the callbacks for failures. -/
def report (l : Listeners κ) (e : Error) : List (Occurrence κ) := l.onError.map (.failure · e)

/-- Decodes a payload and tells the event, or the failure to decode it. -/
def dispatchBytes (l : Listeners κ) (payload : Bytes) : List (Occurrence κ) × Listeners κ :=
  match Event.decode payload with
  | .ok e => l.dispatch e
  | .error e => (.undecodable e :: l.report e, l)

/-- Dispatches payloads in turn. -/
def dispatchAll (l : Listeners κ) : List Bytes → List (Occurrence κ) × Listeners κ
  | [] => ([], l)
  | payload :: payloads =>
    let (first, l) := l.dispatchBytes payload
    let (rest, l) := l.dispatchAll payloads
    (first ++ rest, l)

/-- The description of a registry. -/
def describe (l : Listeners κ) : String :=
  Text.record "Listeners"
    [("instance_id", Text.quoted l.instanceId), ("invalidate", toString l.onEvent.length),
      ("errors", toString l.onError.length)]

end Listeners

end PodCache
