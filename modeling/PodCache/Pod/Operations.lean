import PodCache.Pod.Basic

/-!
# The operations of a pod

A lookup goes to the local cache first and then to the store, whose value is then kept locally.  A
write takes effect locally first, then in the store, and is then told to the peers; only the store
can make it fail, as peers are told on a best-effort basis.  A peer's event changes the local cache
alone.  A closed pod does nothing.
-/

namespace PodCache.Pod

variable {V ω : Type}

/-! ## Starting and ending -/

/-- Closes the synchronizer, then the store, then the local cache.  All three are closed in any
case; the result is the first failure. -/
def teardown (services : Services ω) : Act V ω (Except Error Unit) := do
  let synchronizer ← request services .synchronizerClose
  if let .error e := synchronizer then log (.synchronizerCloseFailed e)
  let store ← request services .storeClose
  if let .error e := store then log (.storeCloseFailed e)
  localClose
  log (.closed (← get).pod.settings.instanceId)
  match synchronizer, store with
  | .error e, _ => return .error e
  | .ok _, .error e => return .error e
  | .ok _, .ok _ => return .ok ()

/-- Closes the pod.  Only the first call does anything. -/
def close (services : Services ω) : Act V ω (Except Error Unit) := do
  if (← get).pod.closed then return .ok ()
  change fun p => { p with closed := true }
  teardown services

/-- Starts to listen to the peers.  A pod that cannot is closed again. -/
def start (services : Services ω) : Act V ω (Except Error Unit) := do
  match ← requestWithin services .subscribe with
  | .ok _ =>
    log (.started (← get).pod.settings.instanceId)
    return .ok ()
  | .error e =>
    log (.subscribeFailed e)
    change fun p => { p with closed := true }
    if let .error failure := ← teardown services then
      log (.teardownFailed failure)
      report failure
    return .error e

/-! ## Lookups and writes -/

/-- The value of a key that the local cache does not have.  A failure of the store, other than that
the key is missing, is reported and counts as a miss. -/
def fetch (services : Services ω) (key : String) : Act V ω (Option V) := do
  match ← requestWithin services (.storeGet key) with
  | .error .notFound =>
    count fun s => { s with remoteMisses := s.remoteMisses + 1 }
    log (.missedInBoth key)
    return none
  | .error e =>
    count fun s => { s with remoteMisses := s.remoteMisses + 1 }
    log (.readFailed key e)
    report e
    return none
  | .ok bytes =>
    count fun s => { s with remoteHits := s.remoteHits + 1 }
    match (← get).pod.settings.codec.decode bytes with
    | .ok value =>
      localSet key value
      log (.repopulated key)
      return some value
    | .error e =>
      log (.storedUndecodable key e)
      report e
      return none

/-- The value of a key. -/
def get (services : Services ω) (key : String) : Act V ω (Option V) := do
  if (← MonadState.get).pod.closed then return none
  match ← localGet key with
  | some value =>
    count fun s => { s with localHits := s.localHits + 1 }
    log (.localHit key)
    return some value
  | none =>
    count fun s => { s with localMisses := s.localMisses + 1 }
    fetch services key

/-- Tells the peers of a write that has succeeded.  A failure is only reported. -/
def publish (services : Services ω) (event : Event) : Act V ω Unit := do
  match ← requestWithin services (.publish event) with
  | .ok _ => log (.published event)
  | .error e =>
    log (.publishFailed event e)
    report e

/-- Reports a failure that makes an operation fail. -/
def fail (entry : LogEntry) (e : Error) : Act V ω (Except Error Unit) := do
  log entry
  report e
  return .error e

/-- What the peers are to do about a value that was set. -/
inductive Announcement where
  /-- Adopt the value. -/
  | value
  /-- Drop what they have. -/
  | invalidation
  deriving DecidableEq, Repr

/-- The event for a value that was set. -/
def Announcement.event (a : Announcement) (key sender : String) (bytes : Bytes) : Event :=
  match a with
  | .value => .set key sender bytes
  | .invalidation => .invalidate key sender

/-- Sets the value of a key. -/
def setAnd (announcement : Announcement) (services : Services ω) (key : String) (value : V) :
    Act V ω (Except Error Unit) := do
  let pod := (← MonadState.get).pod
  if pod.closed then return .error .closed
  localSet key value
  match pod.settings.codec.encode value with
  | .error e => fail (.unencodable key e) e
  | .ok bytes =>
    let written ←
      if pod.settings.writeThrough then requestWithin services (.storeSet key bytes)
      else do
        log (.notWritten key)
        pure (.ok [])
    match written with
    | .error e => fail (.writeFailed key e) e
    | .ok _ =>
      publish services (announcement.event key pod.settings.instanceId bytes)
      return .ok ()

/-- Sets the value of a key and gives it to the peers. -/
def set (services : Services ω) (key : String) (value : V) : Act V ω (Except Error Unit) :=
  setAnd .value services key value

/-- Sets the value of a key and lets the peers drop what they have. -/
def setWithInvalidate (services : Services ω) (key : String) (value : V) :
    Act V ω (Except Error Unit) :=
  setAnd .invalidation services key value

/-- Removes a key everywhere. -/
def delete (services : Services ω) (key : String) : Act V ω (Except Error Unit) := do
  let pod := (← MonadState.get).pod
  if pod.closed then return .error .closed
  localDelete key
  match ← requestWithin services (.storeDelete key) with
  | .error e => fail (.deleteFailed key e) e
  | .ok _ =>
    publish services (.delete key pod.settings.instanceId)
    return .ok ()

/-- Removes every key everywhere. -/
def clear (services : Services ω) : Act V ω (Except Error Unit) := do
  let pod := (← MonadState.get).pod
  if pod.closed then return .error .closed
  localClear
  match ← requestWithin services .storeClear with
  | .error e => fail (.clearFailed e) e
  | .ok _ =>
    publish services (.clear pod.settings.instanceId)
    return .ok ()

/-! ## Events of peers -/

/-- The value that a peer's event puts into the local cache: what the transform decides, or else the
decoded payload. -/
def adopted (event : Event) : Act V ω (Option V) := do
  let settings := (← MonadState.get).pod.settings
  match settings.transform with
  | some transform =>
    let value ← transformEvent transform event
    if value.isNone then log (.transformSkipped event.key)
    return value
  | none =>
    match settings.codec.decode event.payload with
    | .ok value => return some value
    | .error e =>
      log (.peerUndecodable event e)
      report e
      return none

/-- Counts an event that dropped local entries. -/
def countInvalidation : Act V ω Unit :=
  count fun s => { s with invalidations := s.invalidations + 1 }

/-- Carries out what a peer's event asks for. -/
def apply (event : Event) : Act V ω Unit := do
  log (.received event)
  match event.action with
  | .set =>
    if event.payload ≠ [] then
      if let some value := ← adopted event then localSet event.key value
  | .invalidate | .delete =>
    localDelete event.key
    countInvalidation
  | .clear =>
    localClear
    countInvalidation
  | .unknown action => log (.unknownAction event.key action)

/-- Takes notice of a peer's event. -/
def handleEvent (event : Event) : Act V ω Unit := do
  if (← MonadState.get).pod.closed then return
  apply event

end PodCache.Pod
