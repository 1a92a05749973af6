import PodCache.Bus.Basic
import PodCache.Pod.Operations
import PodCache.Store.Address

/-!
# Building pods

A builder collects the configuration of a pod.  The configuration is checked before anything is
made; the first fault that is found, in a fixed order, is the one that is told.  A name that
consists of white space alone counts as missing.
-/

namespace PodCache

namespace Text

/-- Whether a character is white space: the twenty-five characters with that Unicode property. -/
def isBlankChar (c : Char) : Bool :=
  let n := c.toNat
  (0x9 ≤ n && n ≤ 0xD) || n == 0x20 || n == 0x85 || n == 0xA0 || n == 0x1680 ||
    (0x2000 ≤ n && n ≤ 0x200A) || n == 0x2028 || n == 0x2029 || n == 0x202F || n == 0x205F ||
    n == 0x3000

/-- Whether a text has no character other than white space. -/
def isBlank (s : String) : Bool := s.toList.all isBlankChar

end Text

/-- The version of the library. -/
def version : String := "0.1.0"

/-- The time limit for requests unless another is given. -/
def defaultTimeout : Duration := .seconds 5

/-- The configuration of a pod. -/
structure Builder (V : Type) where
  instanceId : String
  codec : Codec V
  channel : String := defaultChannel
  storeConfig : StoreConfig := {}
  /-- The sizes of the local cache that is made when there is no factory. -/
  localConfig : LocalConfig := {}
  /-- What a factory of local caches gives, if there is one. -/
  factory : Option (Except Halt (LocalCache V)) := none
  timeout : Duration := defaultTimeout
  writeThrough : Bool := false
  hasHandler : Bool := false
  transform : Option (Transform V) := none
  weigher : Option (String → V → Nat) := none
  debug : Bool := false

namespace Builder

variable {V : Type}

/-- Refuses with a cause unless a condition holds. -/
def require (condition : Bool) (cause : ConfigError) : Except Error Unit :=
  if condition then .ok () else .error (.invalidConfig cause)

/-- Checks all that does not concern the services. -/
def validate (b : Builder V) : Except Error Unit := do
  require (!Text.isBlank b.instanceId) .missingInstanceId
  require (!Text.isBlank b.channel) .missingChannel
  require (b.timeout.nanos != 0) .zeroTimeout
  require (b.factory.isSome || b.localConfig.numCounters != 0) .zeroCounters
  require (b.factory.isSome || b.localConfig.maxCost != 0) .zeroCost

/-- Checks that a synchronizer speaks for the pod, and on its channel. -/
def checkSynchronizer (b : Builder V) (instanceId channel : String) : Except Error Unit := do
  require (instanceId == b.instanceId) (.identityMismatch instanceId b.instanceId)
  require (channel == b.channel) (.channelMismatch channel b.channel)

/-- The local cache of the pod. -/
def localCache (b : Builder V) (chance : Chance) : Except Halt (LocalCache V) :=
  match b.factory with
  | some made => made
  | none => LocalCache.new chance .frequency b.localConfig

/-- What the pod is configured with. -/
def settings (b : Builder V) : Settings V where
  instanceId := b.instanceId
  codec := b.codec
  timeout := b.timeout
  writeThrough := b.writeThrough
  hasHandler := b.hasHandler
  transform := b.transform
  weigher := b.weigher
  debug := b.debug

/-- The pod, before it starts to listen on a synchronizer of an identity and a channel. -/
def pod (b : Builder V) (chance : Chance) (instanceId channel : String) : Except Halt (Pod V) := do
  b.validate.mapError .refused
  (b.checkSynchronizer instanceId channel).mapError .refused
  return { settings := b.settings, localCache := ← b.localCache chance }

/-- The URL of the networked store that the pod is configured for, given the limits of the reader of
URLs. -/
def storeUrl (b : Builder V) (limits : Url.Limits) : Except Error String := do
  b.validate
  require (!Text.isBlank b.storeConfig.address) .missingAddress
  b.storeConfig.connectionUrl limits

/-- The description of a builder. -/
def describe (b : Builder V) : String :=
  Text.openRecord "CacheBuilder"
    [("instance_id", Text.quoted b.instanceId), ("channel", Text.quoted b.channel),
      ("store_config", b.storeConfig.describe), ("local_config", b.localConfig.describe),
      ("has_local_factory", Text.truth b.factory.isSome), ("operation_timeout", b.timeout.text),
      ("write_through", Text.truth b.writeThrough),
      ("has_transform", Text.truth b.transform.isSome), ("debug_mode", Text.truth b.debug)]

end Builder

end PodCache
