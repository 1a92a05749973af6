import PodCache.Event.Basic
import PodCache.Error

/-!
# Log entries

What a pod writes to its log.  An entry names what happened; its level, its wording and its fields
follow from that.  Entries of the lowest level are written in debug mode only.
-/

namespace PodCache

/-- How serious a log entry is. -/
inductive Level where
  | error
  | warning
  | debug
  deriving DecidableEq, Repr

/-- The name of a level. -/
def Level.name : Level → String
  | .error => "ERROR"
  | .warning => "WARN"
  | .debug => "DEBUG"

/-- The content of a field of a log entry. -/
inductive LogField where
  | text (content : String)
  | failure (e : Error)
  deriving DecidableEq, Repr

/-- What a pod reports in its log. -/
inductive LogEntry where
  | localHit (key : String)
  | missedInBoth (key : String)
  | readFailed (key : String) (e : Error)
  | repopulated (key : String)
  | storedUndecodable (key : String) (e : Error)
  | unencodable (key : String) (e : Error)
  | writeFailed (key : String) (e : Error)
  | notWritten (key : String)
  | deleteFailed (key : String) (e : Error)
  | clearFailed (e : Error)
  | published (event : Event)
  | publishFailed (event : Event) (e : Error)
  | synchronizerCloseFailed (e : Error)
  | storeCloseFailed (e : Error)
  | closed (instanceId : String)
  | subscribeFailed (e : Error)
  | teardownFailed (e : Error)
  | started (instanceId : String)
  | received (event : Event)
  | transformSkipped (key : String)
  | peerUndecodable (event : Event) (e : Error)
  | unknownAction (key action : String)
  | eventUndecodable (e : Error)
  | lagged (channel : String) (skipped : Nat)
  deriving DecidableEq, Repr

namespace LogEntry

/-- The level of an entry. -/
def level : LogEntry → Level
  | storedUndecodable .. | unencodable .. | writeFailed .. | deleteFailed .. | clearFailed ..
  | subscribeFailed .. | peerUndecodable .. => .error
  | readFailed .. | publishFailed .. | synchronizerCloseFailed .. | storeCloseFailed ..
  | teardownFailed .. | eventUndecodable .. | lagged .. => .warning
  | _ => .debug

/-- The wording of an entry. -/
def message : LogEntry → String
  | localHit .. => "local hit"
  | missedInBoth .. => "miss in both tiers"
  | readFailed .. => "backing store read failed"
  | repopulated .. => "remote hit, local cache repopulated"
  | storedUndecodable .. => "stored value could not be decoded"
  | unencodable .. => "value could not be encoded"
  | writeFailed .. => "backing store write failed"
  | notWritten .. => "write-through disabled, store not written"
  | deleteFailed .. => "backing store delete failed"
  | clearFailed .. => "backing store clear failed"
  | published .. => "published peer event"
  | publishFailed .. => "failed to publish peer event"
  | synchronizerCloseFailed .. => "synchronizer close failed"
  | storeCloseFailed .. => "store close failed"
  | closed .. => "synced cache closed"
  | subscribeFailed .. => "failed to subscribe to peer events"
  | teardownFailed .. => "teardown after failed subscribe reported an error"
  | started .. => "synced cache started"
  | received .. => "received peer event"
  | transformSkipped .. => "transform skipped peer value"
  | peerUndecodable .. => "peer value could not be decoded"
  | unknownAction .. => "ignoring unknown peer action"
  | eventUndecodable .. => "dropping undecodable invalidation event"
  | lagged .. => "invalidation listener lagged, events were dropped"

/-- The fields of an entry. -/
def fields : LogEntry → List (String × LogField)
  | localHit key | missedInBoth key | repopulated key | notWritten key | transformSkipped key =>
    [("key", .text key)]
  | readFailed key e | storedUndecodable key e | unencodable key e | writeFailed key e
  | deleteFailed key e => [("key", .text key), ("error", .failure e)]
  | clearFailed e | synchronizerCloseFailed e | storeCloseFailed e | subscribeFailed e
  | teardownFailed e | eventUndecodable e => [("error", .failure e)]
  | published event => [("key", .text event.key), ("action", .text event.action.text)]
  | publishFailed event e =>
    [("key", .text event.key), ("action", .text event.action.text), ("error", .failure e)]
  | closed instanceId | started instanceId => [("instance_id", .text instanceId)]
  | received event =>
    [("key", .text event.key), ("sender", .text event.sender), ("action", .text event.action.text)]
  | peerUndecodable event e =>
    [("key", .text event.key), ("sender", .text event.sender), ("error", .failure e)]
  | unknownAction key action => [("key", .text key), ("action", .text action)]
  | lagged channel skipped =>
    [("channel", .text channel), ("skipped", .text (toString skipped))]

end LogEntry

end PodCache
