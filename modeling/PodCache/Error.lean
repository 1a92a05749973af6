import PodCache.Duration
import PodCache.Text.Quoted
import PodCache.Url.Error

/-!
# Failures

Every operation of the library that can fail does so with an `Error`, which names the cause; its
wording is the function `Error.message`.  A refused configuration has causes of its own.
-/

namespace PodCache

/-- What is wrong with a configuration. -/
inductive ConfigError where
  | missingInstanceId
  | missingChannel
  | missingAddress
  | zeroTimeout
  | zeroCounters
  | zeroCost
  | zeroSize
  /-- The synchronizer speaks for another instance than the one being built. -/
  | identityMismatch (synchronizer own : String)
  /-- The synchronizer listens on another channel than the configured one. -/
  | channelMismatch (synchronizer configured : String)
  | invalidAddress (address : String) (reason : Url.ParseError)
  /-- The store address has no place for a password. -/
  | passwordRefused
  /-- A cause that a collaborator words itself. -/
  | other (reason : String)
  deriving DecidableEq, Repr

/-- The wording of a refused configuration. -/
def ConfigError.message : ConfigError → String
  | .missingInstanceId => "instance id is required"
  | .missingChannel => "channel name is required"
  | .missingAddress => "store address is required"
  | .zeroTimeout => "operation timeout must be greater than zero"
  | .zeroCounters => "num_counters must be greater than zero"
  | .zeroCost => "max_cost must be greater than zero"
  | .zeroSize => "max_size must be greater than zero"
  | .identityMismatch synchronizer own =>
    "synchronizer identity " ++ Text.quoted synchronizer ++ " does not match instance id " ++
      Text.quoted own
  | .channelMismatch synchronizer configured =>
    "synchronizer channel " ++ Text.quoted synchronizer ++ " does not match configured channel " ++
      Text.quoted configured
  | .invalidAddress address reason =>
    "invalid store address " ++ Text.quoted address ++ ": " ++ reason.message
  | .passwordRefused => "store address cannot carry a password"
  | .other reason => reason

/-- The cause of a failed operation.  The causes that come from a codec, the store or the bus carry
the text that their origin gave. -/
inductive Error where
  | closed
  | invalidConfig (cause : ConfigError)
  | notFound
  | serialization (detail : String)
  | deserialization (detail : String)
  | store (detail : String)
  | pubSub (detail : String)
  /-- The operation was still waiting when its time limit passed. -/
  | timeout (limit : Duration)
  | localCache (detail : String)
  deriving DecidableEq, Repr

namespace Error

/-- The wording of a failure. -/
def message : Error → String
  | .closed => "cache is closed"
  | .invalidConfig cause => "invalid cache configuration: " ++ cause.message
  | .notFound => "key not found"
  | .serialization detail => "serialization failed: " ++ detail
  | .deserialization detail => "deserialization failed: " ++ detail
  | .store detail => "backing store error: " ++ detail
  | .pubSub detail => "pub/sub operation failed: " ++ detail
  | .timeout limit => "operation timed out after " ++ limit.text
  | .localCache detail => "local cache error: " ++ detail

/-- The text of the failure underneath, for the causes that wrap one. -/
def source? : Error → Option String
  | .serialization detail => some detail
  | .deserialization detail => some detail
  | .store detail => some detail
  | .pubSub detail => some detail
  | _ => none

/-- Whether a key was missing. -/
def isNotFound : Error → Bool
  | .notFound => true
  | _ => false

/-- Whether a time limit passed. -/
def isTimeout : Error → Bool
  | .timeout _ => true
  | _ => false

/-- Whether the cache, store or synchronizer had been closed. -/
def isClosed : Error → Bool
  | .closed => true
  | _ => false

end Error

/-- What keeps a part of the library from being made. -/
inductive Halt where
  /-- It is refused. -/
  | refused (error : Error)
  /-- The program panics. -/
  | panicked
  deriving DecidableEq, Repr

end PodCache
