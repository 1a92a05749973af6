import Mathlib.Tactic
import PodCache.Bus.Basic

/-!
# What a bus delivers

What waits on a topic grows at the end when something is sent, and shrinks at the front when
something is taken (`Topic.since_send`, `Topic.since_advance`).  A synchronizer that takes payloads
changes nothing but itself (`Bus.Touches`).
-/

namespace PodCache

namespace Topic

variable {t : Topic} {capacity position : Nat} {payload : Bytes}

/-- A payload that is sent waits behind the others, for those who keep up. -/
theorem since_send (payload : Bytes) (hp : position ≤ t.sent)
    (hc : t.sent + 1 - position ≤ capacity) :
    (t.send capacity payload).since position = t.since position ++ [payload] := by
  have hn : t.sent + 1 - position = (t.sent - position) + 1 := by omega
  rw [since, since, send, List.take_take, min_eq_left hc, hn, List.take_succ_cons,
    List.reverse_cons]

/-- Whoever keeps up or not, nothing waits but what was waiting or has just been sent. -/
theorem mem_since_send {p : Bytes} (hp : position ≤ t.sent)
    (h : p ∈ (t.send capacity payload).since position) :
    p ∈ t.since position ∨ p = payload := by
  have hn : t.sent + 1 - position = (t.sent - position) + 1 := by omega
  rw [since, send, List.take_take, List.mem_reverse] at h
  have h' := List.take_subset_take_left (payload :: t.retained) (min_le_left _ _) h
  rw [hn, List.take_succ_cons, List.mem_cons] at h'
  rcases h' with rfl | h'
  · exact .inr rfl
  · exact .inl (List.mem_reverse.2 h')

/-- Taking some of what waits leaves the rest, also when payloads were lost before. -/
theorem since_advance (t : Topic) (position n : Nat) :
    t.since (position + t.lostSince position + n) = (t.since position).drop n := by
  rw [since, since, lostSince, List.drop_reverse, List.length_take, List.take_take]
  congr 2
  omega

theorem length_since (t : Topic) (position : Nat) :
    (t.since position).length = min (t.sent - position) t.retained.length := by
  rw [since, List.length_reverse, List.length_take]

/-- Nobody gets ahead of what was sent. -/
theorem advance_le {n : Nat} (hp : position ≤ t.sent) (hn : n ≤ (t.since position).length) :
    position + t.lostSince position + n ≤ t.sent := by
  rw [length_since] at hn
  rw [lostSince]
  omega

end Topic

/-! ## Callbacks -/

/-- The event that a callback is told. -/
def Occurrence.event? {κ : Type} : Occurrence κ → Option Event
  | .event _ e => some e
  | _ => none

/-- The event of a payload, unless the payload is no event or comes from the receiver. -/
def Event.heardBy (instanceId : String) (payload : Bytes) : Option Event :=
  match Event.decode payload with
  | .ok e => if e.sender = instanceId then none else some e
  | .error _ => none

namespace Listeners

/-- The callbacks of a pod, one of each kind. -/
def ofPod (instanceId : String) : Listeners Unit :=
  { instanceId, onEvent := [{ name := () }], onError := [()] }

theorem dispatchBytes_ofPod (instanceId : String) (payload : Bytes) :
    ((ofPod instanceId).dispatchBytes payload).2 = ofPod instanceId ∧
      ((ofPod instanceId).dispatchBytes payload).1.filterMap Occurrence.event? =
        (Event.heardBy instanceId payload).toList := by
  unfold dispatchBytes Event.heardBy
  rcases Event.decode payload with e | e
  · exact ⟨rfl, rfl⟩
  · dsimp only
    unfold dispatch
    by_cases hs : e.sender = instanceId
    · rw [if_pos hs, if_pos (show e.sender = (ofPod instanceId).instanceId from hs)]
      exact ⟨rfl, rfl⟩
    · rw [if_neg hs, if_neg (show ¬ e.sender = (ofPod instanceId).instanceId from hs)]
      exact ⟨rfl, rfl⟩

theorem dispatchAll_ofPod (instanceId : String) (payloads : List Bytes) :
    ((ofPod instanceId).dispatchAll payloads).2 = ofPod instanceId ∧
      ((ofPod instanceId).dispatchAll payloads).1.filterMap Occurrence.event? =
        payloads.filterMap (Event.heardBy instanceId) := by
  induction payloads with
  | nil => exact ⟨rfl, rfl⟩
  | cons payload payloads ih =>
    obtain ⟨hl, he⟩ := dispatchBytes_ofPod instanceId payload
    rw [dispatchAll]
    dsimp only
    rw [hl, List.filterMap_append, he, ih.2, ih.1]
    refine ⟨rfl, ?_⟩
    cases h : Event.heardBy instanceId payload with
    | none => rw [List.filterMap_cons_none h, Option.toList_none, List.nil_append]
    | some e => rw [List.filterMap_cons_some h, Option.toList_some, List.singleton_append]

end Listeners

namespace Bus

variable {κ : Type}

/-! ## What a request to the bus leaves alone -/

/-- A bus differs from another in one synchronizer at most. -/
structure Touches (id : Nat) (b b' : Bus κ) : Prop where
  capacity : b'.capacity = b.capacity
  topics : b'.topics = b.topics
  others : ∀ j, j ≠ id → b'.synchronizers[j]? = b.synchronizers[j]?

theorem Touches.refl (id : Nat) (b : Bus κ) : Touches id b b := ⟨rfl, rfl, fun _ _ => rfl⟩

theorem touches_modify (b : Bus κ) (id : Nat) (f : Synchronizer κ → Synchronizer κ) :
    Touches id b (b.modify id f) := by
  refine ⟨rfl, rfl, fun j hj => ?_⟩
  rw [modify, Array.getElem?_modify, if_neg hj.symm]

theorem touches_take (b : Bus κ) (id count : Nat) : Touches id b (b.take id count).2 := by
  unfold take
  rcases b.synchronizers[id]? with _ | s
  · exact .refl id b
  · dsimp only
    rcases s.listening with _ | position | _
    · exact .refl id b
    · exact touches_modify b id _
    · exact touches_modify b id _

theorem size_take (b : Bus κ) (id count : Nat) :
    (b.take id count).2.synchronizers.size = b.synchronizers.size := by
  unfold take
  rcases b.synchronizers[id]? with _ | s
  · rfl
  · dsimp only
    rcases s.listening with _ | position | _
    · rfl
    · exact Array.size_modify
    · exact Array.size_modify

/-- Every synchronizer is still on its channel, and open or closed as it was. -/
def Retains (b b' : Bus κ) : Prop :=
  ∀ (j : Nat) (s : Synchronizer κ), b.synchronizers[j]? = some s →
    ∃ s', b'.synchronizers[j]? = some s' ∧ s'.channel = s.channel ∧ s'.closed = s.closed

theorem Retains.refl (b : Bus κ) : Retains b b := fun _ s hs => ⟨s, hs, rfl, rfl⟩

theorem retains_modify (b : Bus κ) (id : Nat) {f : Synchronizer κ → Synchronizer κ}
    (hf : ∀ s, (f s).channel = s.channel ∧ (f s).closed = s.closed) :
    Retains b (b.modify id f) := by
  intro j s hs
  by_cases hj : j = id
  · subst hj
    refine ⟨f s, ?_, hf s⟩
    rw [modify, Array.getElem?_modify, if_pos rfl, hs, Option.map_some]
  · exact ⟨s, ((touches_modify b id f).others j hj).trans hs, rfl, rfl⟩

theorem retains_take (b : Bus κ) (id count : Nat) : Retains b (b.take id count).2 := by
  unfold take
  rcases b.synchronizers[id]? with _ | s
  · exact .refl b
  · dsimp only
    rcases s.listening with _ | position | _
    · exact .refl b
    · exact retains_modify b id fun _ => ⟨rfl, rfl⟩
    · exact retains_modify b id fun _ => ⟨rfl, rfl⟩

theorem Touches.trans {id : Nat} {b b' b'' : Bus κ} (h : Touches id b b') (h' : Touches id b' b'') :
    Touches id b b'' :=
  ⟨h'.capacity.trans h.capacity, h'.topics.trans h.topics,
    fun j hj => (h'.others j hj).trans (h.others j hj)⟩

theorem Touches.symm {id : Nat} {b b' : Bus κ} (h : Touches id b b') : Touches id b' b :=
  ⟨h.capacity.symm, h.topics.symm, fun j hj => (h.others j hj).symm⟩

theorem Touches.topic {id : Nat} {b b' : Bus κ} (h : Touches id b b') (channel : String) :
    b'.topic channel = b.topic channel := by
  rw [Bus.topic, Bus.topic, h.topics]

theorem topic_publishRaw (b : Bus κ) (channel : String) (payload : Bytes) :
    (b.publishRaw channel payload).2.topic channel = (b.topic channel).send b.capacity payload := by
  simp [publishRaw, topic]

theorem topic_publishRaw_of_ne (b : Bus κ) {channel channel' : String} (h : channel ≠ channel')
    (payload : Bytes) : (b.publishRaw channel payload).2.topic channel' = b.topic channel' := by
  simp [publishRaw, topic, Std.TreeMap.getElem?_insert, h]

/-! ## Synchronizers that listen -/

/-- The payloads that wait for a synchronizer. -/
def waiting (b : Bus κ) (id : Nat) : List Bytes :=
  match b.synchronizers[id]? with
  | some { channel, listening := .active position, .. } => (b.topic channel).since position
  | _ => []

/-- The number of payloads of a topic that a synchronizer has not come to yet. -/
def lag (s : Synchronizer κ) (t : Topic) : Nat :=
  match s.listening with
  | .active position => t.sent - position
  | _ => 0

/-- Nobody who listens is behind by more payloads than a topic retains. -/
def KeepsUp (b : Bus κ) : Prop :=
  ∀ s ∈ b.synchronizers, lag s (b.topic s.channel) ≤ b.capacity

instance (b : Bus κ) : Decidable b.KeepsUp :=
  inferInstanceAs (Decidable (∀ s ∈ b.synchronizers, lag s (b.topic s.channel) ≤ b.capacity))

theorem Touches.waiting {id j : Nat} {b b' : Bus κ} (h : Touches id b b') (hj : j ≠ id) :
    b'.waiting j = b.waiting j := by
  simp only [Bus.waiting, h.others j hj, h.topic]

theorem pending_eq (b : Bus κ) (id : Nat) : b.pending id = (b.waiting id).length := by
  unfold pending waiting
  rcases b.synchronizers[id]? with _ | ⟨channel, listeners, listening, closed⟩
  · rfl
  · cases listening <;> rfl

/-- The synchronizer of a pod listens on a channel, from a position that the topic has reached. -/
structure Listens (b : Bus Unit) (id : Nat) (channel name : String) (position : Nat) : Prop where
  synchronizer : b.synchronizers[id]? =
    some { channel, listeners := .ofPod name, listening := .active position }
  le_sent : position ≤ (b.topic channel).sent

variable {b b' : Bus Unit} {id : Nat} {channel name : String} {position : Nat}

theorem Listens.waiting (h : b.Listens id channel name position) :
    b.waiting id = (b.topic channel).since position := by
  rw [Bus.waiting, h.synchronizer]

/-- What others do to their synchronizers does not matter. -/
theorem Listens.of_touches {j : Nat} (h : b.Listens id channel name position)
    (hb : Touches j b b') (hj : id ≠ j) : b'.Listens id channel name position where
  synchronizer := (hb.others id hj).trans h.synchronizer
  le_sent := by rw [hb.topic]; exact h.le_sent

/-- The synchronizer takes the payloads that wait, the oldest first, and the rest goes on waiting;
its pod is told the peers' events among those that it takes. -/
theorem Listens.take (h : b.Listens id channel name position) (count : Nat) :
    (∃ position', (b.take id count).2.Listens id channel name position') ∧
      (b.take id count).2.waiting id = (b.waiting id).drop count ∧
      (b.take id count).1.filterMap Occurrence.event? =
        ((b.waiting id).take count).filterMap (Event.heardBy name) := by
  have hw := h.waiting
  obtain ⟨hs, hp⟩ := h
  obtain ⟨hl, he⟩ := Listeners.dispatchAll_ofPod name
    (((b.topic channel).since position).take count)
  have hlen := List.length_take_le' count ((b.topic channel).since position)
  unfold Bus.take
  rw [hs, hw]
  dsimp only
  rw [hl]
  set payloads := ((b.topic channel).since position).take count
  set b' := b.modify id _
  have hb' : b'.Listens id channel name
      (position + (b.topic channel).lostSince position + payloads.length) := by
    refine ⟨?_, Topic.advance_le hp hlen⟩
    rw [show b' = b.modify id _ from rfl, modify, Array.getElem?_modify, if_pos rfl, hs]
    rfl
  refine ⟨⟨_, hb'⟩, ?_, ?_⟩
  · rw [hb'.waiting, show b'.topic channel = b.topic channel from rfl, Topic.since_advance]
    rcases le_total count ((b.topic channel).since position).length with hc | hc
    · rw [List.length_take_of_le hc]
    · rw [show payloads = _ from List.take_of_length_le hc, List.drop_length,
        List.drop_eq_nil_of_le hc]
  · rw [← he]
    split_ifs <;> rfl

/-! ## Synchronizers that start to listen -/

/-- The bus with one more synchronizer, which has the callbacks of a pod. -/
def attach (b : Bus Unit) (channel name : String) : Bus Unit :=
  ((b.synchronizer channel name).2.listen b.synchronizers.size ()).listenErrors
    b.synchronizers.size ()

theorem synchronizers_attach (b : Bus Unit) (channel name : String) :
    (b.attach channel name).synchronizers =
      b.synchronizers.push { channel, listeners := .ofPod name } := by
  refine Array.ext_getElem? fun j => ?_
  simp only [attach, synchronizer, listen, listenErrors, modify, Array.getElem?_modify,
    Array.getElem?_push]
  split_ifs <;> first | rfl | omega

theorem touches_attach (b : Bus Unit) (channel name : String) :
    Touches b.synchronizers.size b (b.attach channel name) := by
  refine ⟨rfl, rfl, fun j hj => ?_⟩
  rw [synchronizers_attach, Array.getElem?_push, if_neg hj]

theorem subscribe_attach (b : Bus Unit) (channel name : String) :
    (b.attach channel name).subscribe b.synchronizers.size =
      (.ok (), (b.attach channel name).modify b.synchronizers.size fun s =>
        { s with listening := .active (b.topic s.channel).sent }) := by
  unfold subscribe
  rw [synchronizers_attach, Array.getElem?_push, if_pos rfl]
  rfl

/-- A new synchronizer starts to listen at the end of its topic. -/
theorem listens_subscribe_attach (b : Bus Unit) (channel name : String) :
    ((b.attach channel name).subscribe b.synchronizers.size).2.Listens b.synchronizers.size
      channel name (b.topic channel).sent := by
  rw [subscribe_attach]
  refine ⟨?_, le_refl _⟩
  dsimp only
  rw [modify, Array.getElem?_modify, if_pos rfl, synchronizers_attach, Array.getElem?_push,
    if_pos rfl]
  rfl

theorem touches_subscribe_attach (b : Bus Unit) (channel name : String) :
    Touches b.synchronizers.size b
      ((b.attach channel name).subscribe b.synchronizers.size).2 := by
  rw [subscribe_attach]
  exact (touches_attach b channel name).trans (touches_modify _ _ _)

theorem size_subscribe_attach (b : Bus Unit) (channel name : String) :
    ((b.attach channel name).subscribe b.synchronizers.size).2.synchronizers.size =
      b.synchronizers.size + 1 := by
  rw [subscribe_attach]
  dsimp only
  rw [modify, Array.size_modify, synchronizers_attach, Array.size_push]

/-! ## Sending -/

/-- A payload that is sent on the channel goes to the end of what waits, if the synchronizer keeps
up. -/
theorem Listens.publishRaw (h : b.Listens id channel name position) (channel' : String)
    (payload : Bytes) : (b.publishRaw channel' payload).2.Listens id channel name position := by
  refine ⟨h.synchronizer, h.le_sent.trans ?_⟩
  by_cases hc : channel' = channel
  · obtain rfl := hc
    rw [topic_publishRaw]
    exact Nat.le_succ _
  · rw [topic_publishRaw_of_ne b hc]

theorem Listens.waiting_publishRaw (h : b.Listens id channel name position) (payload : Bytes)
    (hc : (b.publishRaw channel payload).2.KeepsUp) :
    (b.publishRaw channel payload).2.waiting id = b.waiting id ++ [payload] := by
  have hs := hc _ (Array.mem_of_getElem? (h.publishRaw channel payload).synchronizer)
  dsimp only at hs
  rw [topic_publishRaw] at hs
  rw [(h.publishRaw channel payload).waiting, h.waiting, topic_publishRaw]
  exact Topic.since_send payload h.le_sent hs

theorem Listens.mem_waiting_publishRaw {p : Bytes} (h : b.Listens id channel name position)
    (payload : Bytes) (hm : p ∈ (b.publishRaw channel payload).2.waiting id) :
    p ∈ b.waiting id ∨ p = payload := by
  rw [(h.publishRaw channel payload).waiting, topic_publishRaw] at hm
  rw [h.waiting]
  exact Topic.mem_since_send h.le_sent hm

end Bus

end PodCache
