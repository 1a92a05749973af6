import PodCache.Bus.Listeners
import PodCache.Number.Word
import Std.Data.TreeMap

/-!
# The bus

A bus carries payloads on named topics between synchronizers.  A topic retains the payloads that
were sent last; each synchronizer that listens has a position in its topic and takes the payloads
from there on when it runs.  One that falls behind by more than is retained loses the oldest.

Nothing is delivered while payloads are sent: `Bus.take` lets one synchronizer take some of what
waits for it, `Bus.run` all of it, and `Bus.settle` lets every synchronizer run.
-/

namespace PodCache

/-- The topic that is used unless another is named. -/
def defaultChannel : String := "cache:invalidate"

/-- What was sent on one channel. -/
structure Topic where
  /-- How many payloads were sent. -/
  sent : Nat := 0
  /-- The payloads sent last, the last first. -/
  retained : List Bytes := []
  deriving DecidableEq, Repr

namespace Topic

/-- One more payload, of which at most `capacity` are retained. -/
def send (t : Topic) (capacity : Nat) (payload : Bytes) : Topic :=
  ⟨t.sent + 1, (payload :: t.retained).take capacity⟩

/-- The number of payloads sent since a position that are no longer retained. -/
def lostSince (t : Topic) (position : Nat) : Nat := t.sent - position - t.retained.length

/-- The retained payloads sent since a position, in the order in which they were sent. -/
def since (t : Topic) (position : Nat) : List Bytes :=
  (t.retained.take (t.sent - position)).reverse

end Topic

/-- Whether a synchronizer takes payloads. -/
inductive Listening where
  | idle
  /-- It takes the payloads from a position on. -/
  | active (position : Nat)
  /-- Its owner is gone; it stops when it runs next. -/
  | ending
  deriving DecidableEq, Repr

/-- Whether payloads still reach a synchronizer. -/
def Listening.isReached : Listening → Bool
  | .idle => false
  | _ => true

/-- A participant of a bus. -/
structure Synchronizer (κ : Type) where
  channel : String
  listeners : Listeners κ
  listening : Listening := .idle
  closed : Bool := false
  deriving DecidableEq, Repr

/-- The description of a synchronizer. -/
def Synchronizer.describe {κ : Type} (s : Synchronizer κ) : String :=
  Text.record "MemorySynchronizer"
    [("channel", Text.quoted s.channel), ("instance_id", Text.quoted s.listeners.instanceId),
      ("closed", Text.truth s.closed)]

/-- A bus.  Its synchronizers are known by the order in which they were made. -/
structure Bus (κ : Type) where
  /-- The number of payloads that a topic retains. -/
  capacity : Nat
  topics : Std.TreeMap String Topic := {}
  synchronizers : Array (Synchronizer κ) := #[]

namespace Bus

variable {κ : Type}

/-- The capacity of a bus unless another is asked for. -/
def defaultCapacity : Nat := 1024

/-- A bus whose topics retain at least a number of payloads; the size of a ring is a power of
two. -/
def withCapacity (capacity : Nat) : Bus κ := { capacity := leastPowerOfTwo (max 1 capacity) }

/-- The topic of a channel. -/
def topic (b : Bus κ) (channel : String) : Topic := (b.topics[channel]?).getD {}

/-- The number of synchronizers that a payload on a channel reaches. -/
def reached (b : Bus κ) (channel : String) : Nat :=
  b.synchronizers.countP fun s => s.channel == channel && s.listening.isReached

/-- Sends a payload, and tells how many synchronizers it reaches. -/
def publishRaw (b : Bus κ) (channel : String) (payload : Bytes) : Nat × Bus κ :=
  (b.reached channel,
    { b with topics := b.topics.insert channel ((b.topic channel).send b.capacity payload) })

/-- A new synchronizer, and its number. -/
def synchronizer (b : Bus κ) (channel instanceId : String) : Nat × Bus κ :=
  (b.synchronizers.size,
    { b with synchronizers := b.synchronizers.push { channel, listeners := { instanceId } } })

/-- Changes one synchronizer. -/
def modify (b : Bus κ) (id : Nat) (f : Synchronizer κ → Synchronizer κ) : Bus κ :=
  { b with synchronizers := b.synchronizers.modify id f }

/-- Registers a callback for events. -/
def listen (b : Bus κ) (id : Nat) (callback : κ) : Bus κ :=
  b.modify id fun s => { s with listeners := s.listeners.listen { name := callback } }

/-- Registers a callback for failures. -/
def listenErrors (b : Bus κ) (id : Nat) (callback : κ) : Bus κ :=
  b.modify id fun s => { s with listeners := s.listeners.listenErrors callback }

/-- Starts listening at the end of the topic; a synchronizer that listens already goes on. -/
def subscribe (b : Bus κ) (id : Nat) : Except Error Unit × Bus κ :=
  match b.synchronizers[id]? with
  | none => (.error .closed, b)
  | some s =>
    if s.closed then (.error .closed, b)
    else if s.listening = .idle then
      (.ok (), b.modify id fun s => { s with listening := .active (b.topic s.channel).sent })
    else (.ok (), b)

/-- Sends an event on the synchronizer's channel. -/
def publish (b : Bus κ) (id : Nat) (e : Event) : Except Error Unit × Bus κ :=
  match b.synchronizers[id]? with
  | none => (.error .closed, b)
  | some s =>
    if s.closed then (.error .closed, b) else (.ok (), (b.publishRaw s.channel e.encode).2)

/-- Stops listening for good; what was not taken is not delivered. -/
def close (b : Bus κ) (id : Nat) : Bus κ :=
  b.modify id fun s => if s.closed then s else { s with closed := true, listening := .idle }

/-- The owner of a synchronizer goes away. -/
def drop (b : Bus κ) (id : Nat) : Bus κ :=
  b.modify id fun s =>
    { s with closed := true, listening := if s.listening = .idle then .idle else .ending }

/-- The number of payloads that a synchronizer can still take. -/
def pending (b : Bus κ) (id : Nat) : Nat :=
  match b.synchronizers[id]? with
  | some { channel, listening := .active position, .. } => ((b.topic channel).since position).length
  | _ => 0

/-- Lets one synchronizer take at most `count` of the payloads that wait for it, the oldest first,
and tells what happens.  If some were lost, it goes on at the oldest that is retained. -/
def take (b : Bus κ) (id count : Nat) : List (Occurrence κ) × Bus κ :=
  match b.synchronizers[id]? with
  | none => ([], b)
  | some s =>
    match s.listening with
    | .idle => ([], b)
    | .ending => ([], b.modify id fun s => { s with listening := .idle })
    | .active position =>
      let topic := b.topic s.channel
      let lost := topic.lostSince position
      let payloads := (topic.since position).take count
      let (calls, listeners) := s.listeners.dispatchAll payloads
      (if lost = 0 then calls else .lagged lost :: calls,
        b.modify id fun s =>
          { s with listeners, listening := .active (position + lost + payloads.length) })

/-- Lets one synchronizer take all that waits for it. -/
def run (b : Bus κ) (id : Nat) : List (Occurrence κ) × Bus κ := b.take id (b.pending id)

/-- Lets the synchronizers with the given numbers run in turn. -/
def runAll (b : Bus κ) : List Nat → List (Nat × Occurrence κ) × Bus κ
  | [] => ([], b)
  | id :: ids =>
    let (first, b) := b.run id
    let (rest, b) := b.runAll ids
    (first.map (id, ·) ++ rest, b)

/-- Lets every synchronizer run until nothing waits. -/
def settle (b : Bus κ) : List (Nat × Occurrence κ) × Bus κ :=
  b.runAll (List.range b.synchronizers.size)

end Bus

end PodCache
