import PodCache.Duration
import PodCache.Error
import PodCache.Event.Basic

/-!
# The services of a pod

A pod works with a store and a synchronizer that it shares with others or reaches over a network.
All it knows of them is how they respond to requests: after how long, with what result, and with
what effect on the world outside.  Some responses are waited for only so long; a request that is
given up has no effect.
-/

namespace PodCache

/-- What a pod asks of its store or its synchronizer. -/
inductive Request where
  | storeGet (key : String)
  | storeSet (key : String) (value : Bytes)
  | storeDelete (key : String)
  | storeClear
  | storeClose
  | subscribe
  | publish (event : Event)
  | synchronizerClose
  deriving DecidableEq, Repr

/-- The kinds of requests. -/
inductive Point where
  | storeGet
  | storeSet
  | storeDelete
  | storeClear
  | storeClose
  | subscribe
  | publish
  | synchronizerClose
  deriving DecidableEq, Repr

/-- The kind of a request. -/
def Request.point : Request → Point
  | storeGet .. => .storeGet
  | storeSet .. => .storeSet
  | storeDelete .. => .storeDelete
  | storeClear => .storeClear
  | storeClose => .storeClose
  | subscribe => .subscribe
  | publish .. => .publish
  | synchronizerClose => .synchronizerClose

/-- The response to a request.  The result is a value for a lookup, and empty for all else. -/
structure Response (ω : Type) where
  /-- The milliseconds that pass before anything happens. -/
  wait : Nat
  result : Except Error Bytes
  /-- The world as the request leaves it. -/
  world : ω

/-- How the world outside a pod responds to its requests. -/
abbrev Services (ω : Type) := Request → ω → Response ω

namespace Services

variable {ω : Type}

/-- The result of a request that is waited for without end. -/
def wait (services : Services ω) (r : Request) (w : ω) : Except Error Bytes × ω :=
  let response := services r w
  (response.result, response.world)

/-- The result of a request that is given up when a time limit passes. -/
def waitWithin (limit : Duration) (services : Services ω) (r : Request) (w : ω) :
    Except Error Bytes × ω :=
  let response := services r w
  if response.wait ≤ limit.ticks then (response.result, response.world)
  else (.error (.timeout limit), w)

end Services

end PodCache
