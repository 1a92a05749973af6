import Mathlib.Data.List.DropRight
import PodCache.Proofs.Bus.Delivery

/-!
# The law of delivery

A run of a bus is a sequence of requests: payloads are sent, synchronizers start and stop, callbacks
are registered, and listeners take some or all of what waits for them.  A listener that takes all of
it processes the payloads sent on its channel since it started or last took any, in order and each
once; of more payloads than the bus retains it processes the last ones (`run_of_starts`).
-/

namespace PodCache

/-- What a bus may be asked to do. -/
inductive BusRequest (κ : Type) where
  | synchronizer (channel instanceId : String)
  | listen (id : Nat) (callback : κ)
  | listenErrors (id : Nat) (callback : κ)
  | subscribe (id : Nat)
  | publish (id : Nat) (e : Event)
  | publishRaw (channel : String) (payload : Bytes)
  | take (id count : Nat)
  | run (id : Nat)
  | close (id : Nat)
  | drop (id : Nat)

/-- Whether a request lets a synchronizer go on waiting. -/
def BusRequest.Spares {κ : Type} (id : Nat) : BusRequest κ → Prop
  | .take j _ | .run j | .close j | .drop j => j ≠ id
  | _ => True

/-! ## Topics -/

theorem rtake_rtake_append {α : Type} (xs ys : List α) (n : Nat) :
    (xs.rtake n ++ ys).rtake n = (xs ++ ys).rtake n := by
  simp only [List.rtake_eq_reverse_take_reverse, List.reverse_append, List.reverse_reverse,
    List.take_append, List.take_take]
  congr 3
  omega

theorem rtake_of_length_le {α : Type} {xs : List α} {n : Nat} (h : xs.length ≤ n) :
    xs.rtake n = xs := by
  rw [List.rtake, Nat.sub_eq_zero_of_le h, List.drop_zero]

namespace Topic

variable {t : Topic} {capacity position : Nat}

/-- Several more payloads. -/
def sendAll (t : Topic) (capacity : Nat) (payloads : List Bytes) : Topic :=
  payloads.foldl (fun t payload => t.send capacity payload) t

theorem sendAll_append (t : Topic) (capacity : Nat) (ps qs : List Bytes) :
    t.sendAll capacity (ps ++ qs) = (t.sendAll capacity ps).sendAll capacity qs :=
  List.foldl_append

theorem sent_sendAll (t : Topic) (capacity : Nat) (payloads : List Bytes) :
    (t.sendAll capacity payloads).sent = t.sent + payloads.length := by
  induction payloads generalizing t with
  | nil => rfl
  | cons payload payloads ih =>
    have hsent : (t.send capacity payload).sent = t.sent + 1 := rfl
    rw [sendAll, List.foldl_cons, ← sendAll, ih, hsent, List.length_cons]
    omega

theorem length_retained_send (t : Topic) (capacity : Nat) (payload : Bytes) :
    (t.send capacity payload).retained.length = min capacity (t.retained.length + 1) := by
  rw [send, List.length_take, List.length_cons]

theorem length_retained_sendAll (h : t.retained.length ≤ capacity) (payloads : List Bytes) :
    (t.sendAll capacity payloads).retained.length =
      min capacity (t.retained.length + payloads.length) := by
  induction payloads generalizing t with
  | nil => exact (min_eq_right h).symm
  | cons payload payloads ih =>
    have hlen := length_retained_send t capacity payload
    rw [sendAll, List.foldl_cons, ← sendAll, ih (by omega), hlen, List.length_cons]
    omega

/-- What waits after a payload was sent, also for those who do not keep up. -/
theorem since_send_eq (hp : position ≤ t.sent) (payload : Bytes) :
    (t.send capacity payload).since position =
      (t.since position ++ [payload]).rtake capacity := by
  have hn : t.sent + 1 - position = (t.sent - position) + 1 := by omega
  rw [List.rtake_eq_reverse_take_reverse, List.reverse_append, since, since, List.reverse_reverse,
    send, List.take_take, min_comm, ← List.take_take, hn]
  rfl

theorem since_sendAll (hp : position ≤ t.sent) (h : t.retained.length ≤ capacity)
    (payloads : List Bytes) :
    (t.sendAll capacity payloads).since position =
      (t.since position ++ payloads).rtake capacity := by
  induction payloads using List.reverseRecOn with
  | nil =>
    have hlen := t.length_since position
    rw [List.append_nil, rtake_of_length_le (by omega)]
    rfl
  | append_singleton payloads payload ih =>
    have hp' : position ≤ (t.sendAll capacity payloads).sent := by
      rw [sent_sendAll]
      omega
    rw [sendAll_append]
    exact (since_send_eq hp' payload).trans (by
      rw [ih, rtake_rtake_append, List.append_assoc])

/-- How many payloads are lost to those who had lost none before. -/
theorem lostSince_sendAll (h : t.retained.length ≤ capacity)
    (hl : t.lostSince position = 0) (hp : position ≤ t.sent) (payloads : List Bytes) :
    (t.sendAll capacity payloads).lostSince position =
      (t.since position ++ payloads).length - capacity := by
  have hlen := t.length_since position
  rw [lostSince] at hl ⊢
  rw [sent_sendAll, length_retained_sendAll h, List.length_append, hlen]
  omega

end Topic

/-! ## Callbacks -/

namespace Listeners

variable {κ : Type} {l : Listeners κ}

/-- What happens when a payload arrives: callbacks are told the failure to decode it, or the event
unless it comes from the participant itself, each once and in the order of their registration. -/
def told (l : Listeners κ) (payload : Bytes) : List (Occurrence κ) :=
  match Event.decode payload with
  | .error e => .undecodable e :: l.onError.map fun name => .failure name e
  | .ok e => if e.sender = l.instanceId then [] else l.onEvent.map fun c => .event c.name e

/-- No callback registers others. -/
def Plain (l : Listeners κ) : Prop := ∀ c ∈ l.onEvent, c.registers = []

theorem foldl_run_of_plain (e : Event) {cs : List (Callback κ)} (h : ∀ c ∈ cs, c.registers = [])
    (before : List (Occurrence κ)) (l : Listeners κ) :
    cs.foldl (run e) (before, l) = (before ++ cs.map fun c => .event c.name e, l) := by
  induction cs generalizing before with
  | nil => simp
  | cons c cs ih =>
    rw [List.foldl_cons, run, h c List.mem_cons_self, List.foldl_nil,
      ih fun c hc => h c (List.mem_cons_of_mem _ hc)]
    simp

theorem dispatchBytes_of_plain (h : l.Plain) (payload : Bytes) :
    l.dispatchBytes payload = (l.told payload, l) := by
  unfold dispatchBytes told
  cases Event.decode payload with
  | error e => rfl
  | ok e =>
    dsimp only
    unfold dispatch
    split_ifs
    · rfl
    · exact foldl_run_of_plain e h [] l

theorem dispatchAll_of_plain (h : l.Plain) (payloads : List Bytes) :
    l.dispatchAll payloads = (payloads.flatMap l.told, l) := by
  induction payloads with
  | nil => rfl
  | cons payload payloads ih =>
    rw [dispatchAll, dispatchBytes_of_plain h]
    dsimp only
    rw [ih, List.flatMap_cons]

/-- The callbacks of a synchronizer after a request. -/
def register (id : Nat) (l : Listeners κ) : BusRequest κ → Listeners κ
  | .listen j name => if j = id then l.listen { name } else l
  | .listenErrors j name => if j = id then l.listenErrors name else l
  | _ => l

theorem plain_listen (h : l.Plain) (name : κ) : (l.listen { name }).Plain := by
  intro c hc
  rcases List.mem_append.1 hc with hc | hc
  · exact h c hc
  · rw [List.mem_singleton.1 hc]

end Listeners

/-! ## Runs -/

namespace Bus

variable {κ : Type} {b : Bus κ} {id : Nat} {s : Synchronizer κ} {position : Nat}

/-- The bus after a request. -/
def serve (b : Bus κ) : BusRequest κ → Bus κ
  | .synchronizer channel instanceId => (b.synchronizer channel instanceId).2
  | .listen id callback => b.listen id callback
  | .listenErrors id callback => b.listenErrors id callback
  | .subscribe id => (b.subscribe id).2
  | .publish id e => (b.publish id e).2
  | .publishRaw channel payload => (b.publishRaw channel payload).2
  | .take id count => (b.take id count).2
  | .run id => (b.run id).2
  | .close id => b.close id
  | .drop id => b.drop id

/-- The bus after a sequence of requests. -/
def after (b : Bus κ) (requests : List (BusRequest κ)) : Bus κ := requests.foldl serve b

/-- The payloads that a request sends on a channel. -/
def sends (b : Bus κ) (channel : String) : BusRequest κ → List Bytes
  | .publish id e =>
    match b.synchronizers[id]? with
    | some s => if s.closed = false ∧ s.channel = channel then [e.encode] else []
    | none => []
  | .publishRaw channel' payload => if channel' = channel then [payload] else []
  | _ => []

/-- The payloads that requests send on a channel, in their order. -/
def sendsAll (b : Bus κ) (channel : String) : List (BusRequest κ) → List Bytes
  | [] => []
  | r :: rs => b.sends channel r ++ (b.serve r).sendsAll channel rs

theorem touches_subscribe (b : Bus κ) (id : Nat) : Touches id b (b.subscribe id).2 := by
  unfold subscribe
  cases b.synchronizers[id]? with
  | none => exact .refl id b
  | some s =>
    dsimp only
    split_ifs
    · exact .refl id b
    · exact touches_modify b id _
    · exact .refl id b

theorem topic_publish (b : Bus κ) (id : Nat) (e : Event) (channel : String) :
    (b.publish id e).2.topic channel =
      (b.topic channel).sendAll b.capacity (b.sends channel (.publish id e)) := by
  simp only [publish, sends]
  cases b.synchronizers[id]? with
  | none => rfl
  | some s =>
    dsimp only
    by_cases hc : s.closed = true
    · simp [hc, Topic.sendAll]
    · rw [if_neg hc]
      by_cases hch : s.channel = channel
      · subst hch
        rw [if_pos ⟨Bool.eq_false_of_not_eq_true hc, rfl⟩]
        exact topic_publishRaw b s.channel e.encode
      · rw [if_neg fun h => hch h.2]
        exact topic_publishRaw_of_ne b hch e.encode

/-- A topic receives what is sent on its channel, and nothing else. -/
theorem topic_serve (b : Bus κ) (r : BusRequest κ) (channel : String) :
    (b.serve r).topic channel =
      (b.topic channel).sendAll b.capacity (b.sends channel r) := by
  cases r with
  | synchronizer _ _ => rfl
  | listen _ _ => rfl
  | listenErrors _ _ => rfl
  | subscribe id => exact (touches_subscribe b id).topic channel
  | publish id e => exact topic_publish b id e channel
  | publishRaw channel' payload =>
    simp only [serve, sends]
    split_ifs with hc
    · subst hc
      exact topic_publishRaw b channel' payload
    · exact topic_publishRaw_of_ne b hc payload
  | take id count => exact (touches_take b id count).topic channel
  | run id => exact (touches_take b id (b.pending id)).topic channel
  | close _ => rfl
  | drop _ => rfl

theorem capacity_serve (b : Bus κ) (r : BusRequest κ) : (b.serve r).capacity = b.capacity := by
  cases r with
  | synchronizer _ _ => rfl
  | listen _ _ => rfl
  | listenErrors _ _ => rfl
  | subscribe id => exact (touches_subscribe b id).capacity
  | publish id e =>
    simp only [serve, publish]
    cases b.synchronizers[id]? with
    | none => rfl
    | some s =>
      dsimp only
      split_ifs <;> rfl
  | publishRaw _ _ => rfl
  | take id count => exact (touches_take b id count).capacity
  | run id => exact (touches_take b id (b.pending id)).capacity
  | close _ => rfl
  | drop _ => rfl

theorem capacity_after (b : Bus κ) (rs : List (BusRequest κ)) :
    (b.after rs).capacity = b.capacity := by
  induction rs generalizing b with
  | nil => rfl
  | cons r rs ih => exact (ih (b.serve r)).trans (capacity_serve b r)

theorem topic_after (b : Bus κ) (rs : List (BusRequest κ)) (channel : String) :
    (b.after rs).topic channel =
      (b.topic channel).sendAll b.capacity (b.sendsAll channel rs) := by
  induction rs generalizing b with
  | nil => rfl
  | cons r rs ih =>
    rw [sendsAll, Topic.sendAll_append, ← topic_serve, ← capacity_serve b r]
    exact ih (b.serve r)

/-! ## What holds in every run -/

/-- A synchronizer does not run ahead of its topic, and its callbacks register no others. -/
structure Follows (b : Bus κ) (s : Synchronizer κ) : Prop where
  plain : s.listeners.Plain
  le_sent : ∀ position, s.listening = .active position → position ≤ (b.topic s.channel).sent

/-- No topic retains more than it may, and every synchronizer follows its topic. -/
structure Sound (b : Bus κ) : Prop where
  retained_le : ∀ channel, (b.topic channel).retained.length ≤ b.capacity
  follows : ∀ (id : Nat) (s : Synchronizer κ), b.synchronizers[id]? = some s → b.Follows s

theorem sound_withCapacity (n : Nat) : (withCapacity n : Bus κ).Sound where
  retained_le := fun channel => by simp [withCapacity, topic]
  follows := fun id s hs => by simp [withCapacity] at hs

theorem Sound.of_touches {b' : Bus κ} (h : b.Sound) (hb : Touches id b b')
    (hid : ∀ s, b'.synchronizers[id]? = some s → b.Follows s) : b'.Sound := by
  constructor
  · intro channel
    rw [hb.topic, hb.capacity]
    exact h.retained_le channel
  · intro j s hs
    have hf : b.Follows s := by
      by_cases hj : j = id
      · subst hj
        exact hid s hs
      · exact h.follows j s ((hb.others j hj).symm.trans hs)
    refine ⟨hf.plain, fun position hl => ?_⟩
    rw [hb.topic]
    exact hf.le_sent position hl

theorem Sound.modify (h : b.Sound) (id : Nat) {f : Synchronizer κ → Synchronizer κ}
    (hf : ∀ s, b.synchronizers[id]? = some s → b.Follows (f s)) : (b.modify id f).Sound := by
  refine h.of_touches (touches_modify b id f) fun s hs => ?_
  rw [Bus.modify, Array.getElem?_modify, if_pos rfl] at hs
  obtain ⟨s', hs', rfl⟩ := Option.map_eq_some_iff.1 hs
  exact hf s' hs'

theorem Sound.publishRaw (h : b.Sound) (channel : String) (payload : Bytes) :
    (b.publishRaw channel payload).2.Sound := by
  have htopic (channel' : String) : (b.publishRaw channel payload).2.topic channel' =
      (b.topic channel').sendAll b.capacity (b.sends channel' (.publishRaw channel payload)) :=
    topic_serve b (.publishRaw channel payload) channel'
  constructor
  · intro channel'
    rw [htopic, Topic.length_retained_sendAll (h.retained_le channel')]
    exact min_le_left _ _
  · intro j s hs
    have hf := h.follows j s hs
    refine ⟨hf.plain, fun position hl => (hf.le_sent position hl).trans ?_⟩
    rw [htopic, Topic.sent_sendAll]
    exact Nat.le_add_right _ _

theorem getElem?_modify_self (hs : b.synchronizers[id]? = some s)
    (f : Synchronizer κ → Synchronizer κ) :
    (b.modify id f).synchronizers[id]? = some (f s) := by
  rw [modify, Array.getElem?_modify, if_pos rfl, hs, Option.map_some]

/-- What a listening synchronizer takes, and where it goes on. -/
theorem take_of_active (hs : b.synchronizers[id]? = some s) (hl : s.listening = .active position)
    (hp : s.listeners.Plain) (count : Nat) :
    (b.take id count).1 =
      (if (b.topic s.channel).lostSince position = 0 then []
        else [.lagged ((b.topic s.channel).lostSince position)]) ++
        (((b.topic s.channel).since position).take count).flatMap s.listeners.told ∧
    (b.take id count).2.synchronizers[id]? =
      some { s with
        listening := .active (position + (b.topic s.channel).lostSince position +
          (((b.topic s.channel).since position).take count).length) } := by
  unfold take
  rw [hs]
  dsimp only
  rw [hl]
  dsimp only
  rw [Listeners.dispatchAll_of_plain hp]
  refine ⟨?_, getElem?_modify_self hs _⟩
  split_ifs <;> rfl

theorem Sound.take (h : b.Sound) (id count : Nat) : (b.take id count).2.Sound := by
  refine h.of_touches (touches_take b id count) fun s' hs' => ?_
  cases hs : b.synchronizers[id]? with
  | none =>
    rw [Bus.take, hs] at hs'
    cases hs.symm.trans hs'
  | some s =>
    have hf := h.follows id s hs
    cases hl : s.listening with
    | active position =>
      rw [(take_of_active hs hl hf.plain count).2] at hs'
      obtain rfl := Option.some.inj hs'
      refine ⟨hf.plain, fun position' hl' => ?_⟩
      obtain rfl := Listening.active.inj hl'
      exact Topic.advance_le (hf.le_sent position hl) (List.length_take_le' _ _)
    | idle =>
      simp only [Bus.take, hs, hl] at hs'
      obtain rfl := Option.some.inj hs'
      exact hf
    | ending =>
      simp only [Bus.take, hs, hl, getElem?_modify_self hs] at hs'
      obtain rfl := Option.some.inj hs'
      exact ⟨hf.plain, nofun⟩

theorem Sound.subscribe (h : b.Sound) (id : Nat) : (b.subscribe id).2.Sound := by
  unfold Bus.subscribe
  cases hs : b.synchronizers[id]? with
  | none => exact h
  | some s =>
    dsimp only
    split_ifs
    · exact h
    · refine h.modify id fun s' hs' => ⟨(h.follows id s' hs').plain, fun position hl => ?_⟩
      obtain rfl := Listening.active.inj hl
      exact le_refl _
    · exact h

theorem Sound.serve (h : b.Sound) (r : BusRequest κ) : (b.serve r).Sound := by
  cases r with
  | synchronizer channel instanceId =>
    refine ⟨h.retained_le, fun j s hs => ?_⟩
    rw [Bus.serve, Bus.synchronizer, Array.getElem?_push] at hs
    split_ifs at hs
    · obtain rfl := Option.some.inj hs
      exact ⟨fun _ hc => absurd hc List.not_mem_nil, fun _ hl => by cases hl⟩
    · exact ⟨(h.follows j s hs).plain, (h.follows j s hs).le_sent⟩
  | listen id callback =>
    exact h.modify id fun s hs =>
      ⟨Listeners.plain_listen (h.follows id s hs).plain callback, (h.follows id s hs).le_sent⟩
  | listenErrors id callback =>
    exact h.modify id fun s hs => ⟨(h.follows id s hs).plain, (h.follows id s hs).le_sent⟩
  | subscribe id => exact h.subscribe id
  | publish id e =>
    simp only [Bus.serve, Bus.publish]
    cases b.synchronizers[id]? with
    | none => exact h
    | some s =>
      dsimp only
      split_ifs
      · exact h
      · exact h.publishRaw s.channel e.encode
  | publishRaw channel payload => exact h.publishRaw channel payload
  | take id count => exact h.take id count
  | run id => exact h.take id (b.pending id)
  | close id =>
    refine h.modify id fun s hs => ?_
    split_ifs
    · exact h.follows id s hs
    · exact ⟨(h.follows id s hs).plain, fun _ hl => by cases hl⟩
  | drop id =>
    refine h.modify id fun s hs => ⟨(h.follows id s hs).plain, fun position hl => ?_⟩
    dsimp only at hl
    split_ifs at hl

theorem Sound.after (h : b.Sound) (rs : List (BusRequest κ)) : (b.after rs).Sound := by
  induction rs generalizing b with
  | nil => exact h
  | cons r rs ih => exact ih (h.serve r)

/-! ## Listening -/

/-- Whether a request makes a synchronizer wait for what is sent from then on: it subscribes, or it
takes what waits, of which some may be left. -/
def Starts (b : Bus κ) (id : Nat) : BusRequest κ → Prop
  | .subscribe j =>
    j = id ∧ ∃ s, b.synchronizers[id]? = some s ∧ s.closed = false ∧ s.listening = .idle
  | .run j | .take j _ =>
    j = id ∧ ∃ s position, b.synchronizers[id]? = some s ∧ s.listening = .active position
  | _ => False

theorem subscribe_of_active (hs : b.synchronizers[id]? = some s)
    (hl : s.listening = .active position) : (b.subscribe id).2 = b := by
  have hidle : s.listening ≠ .idle := by
    rw [hl]
    exact nofun
  unfold subscribe
  rw [hs]
  dsimp only
  rw [if_neg hidle]
  split_ifs <;> rfl

/-- A synchronizer that is spared stays where it is; callbacks may be registered. -/
theorem synchronizer_serve {r : BusRequest κ} (hr : r.Spares id)
    (hs : b.synchronizers[id]? = some s) (hl : s.listening = .active position) :
    (b.serve r).synchronizers[id]? =
      some { s with listeners := s.listeners.register id r } := by
  have other {b' : Bus κ} {j : Nat} (hb : Touches j b b') (hj : j ≠ id) :
      b'.synchronizers[id]? = some s := (hb.others id hj.symm).trans hs
  cases r with
  | synchronizer channel instanceId =>
    obtain ⟨hlt, -⟩ := Array.getElem?_eq_some_iff.1 hs
    rw [serve, synchronizer, Array.getElem?_push, if_neg (by omega)]
    exact hs
  | listen j callback =>
    simp only [Listeners.register]
    split_ifs with hj
    · subst hj
      exact getElem?_modify_self hs _
    · exact other (touches_modify b j _) hj
  | listenErrors j callback =>
    simp only [Listeners.register]
    split_ifs with hj
    · subst hj
      exact getElem?_modify_self hs _
    · exact other (touches_modify b j _) hj
  | subscribe j =>
    by_cases hj : j = id
    · subst hj
      rw [serve, subscribe_of_active hs hl]
      exact hs
    · exact other (touches_subscribe b j) hj
  | publish j e =>
    simp only [serve, publish]
    cases b.synchronizers[j]? with
    | none => exact hs
    | some s' =>
      dsimp only
      split_ifs <;> exact hs
  | publishRaw _ _ => exact hs
  | take j count => exact other (touches_take b j count) hr
  | run j => exact other (touches_take b j _) hr
  | close j => exact other (touches_modify b j _) hr
  | drop j => exact other (touches_modify b j _) hr

theorem synchronizer_after {rs : List (BusRequest κ)} (hr : ∀ r ∈ rs, r.Spares id)
    (hs : b.synchronizers[id]? = some s) (hl : s.listening = .active position) :
    (b.after rs).synchronizers[id]? =
      some { s with listeners := rs.foldl (Listeners.register id) s.listeners } := by
  induction rs generalizing b s with
  | nil => exact hs
  | cons r rs ih =>
    have hserve := synchronizer_serve (hr r List.mem_cons_self) hs hl
    exact ih (fun r' hr' => hr r' (List.mem_cons_of_mem _ hr')) hserve hl

theorem waiting_of_active (hs : b.synchronizers[id]? = some s)
    (hl : s.listening = .active position) :
    b.waiting id = (b.topic s.channel).since position := by
  obtain ⟨channel, listeners, listening, closed⟩ := s
  subst hl
  rw [waiting, hs]

/-- Whoever has taken some of what waited has lost nothing yet of the rest. -/
theorem lostSince_advance (t : Topic) (position n : Nat) :
    t.lostSince (position + t.lostSince position + n) = 0 := by
  rw [Topic.lostSince, Topic.lostSince]
  omega

/-- After taking some of what waits a synchronizer listens on and has lost nothing of the rest. -/
theorem take_starts (h : b.Sound) (hs : b.synchronizers[id]? = some s)
    (hl : s.listening = .active position) (count : Nat) :
    ∃ position', (b.take id count).2.synchronizers[id]? =
        some { s with listening := .active position' } ∧
      ((b.take id count).2.topic s.channel).lostSince position' = 0 ∧
      (b.take id count).2.waiting id = (b.waiting id).drop count := by
  obtain ⟨-, hsync⟩ := take_of_active hs hl (h.follows id s hs).plain count
  have htopic := (touches_take b id count).topic s.channel
  have hlen : (((b.topic s.channel).since position).take count).length =
      min count ((b.topic s.channel).since position).length := List.length_take
  refine ⟨_, hsync, ?_, ?_⟩
  · rw [htopic]
    exact lostSince_advance _ _ _
  · rw [waiting_of_active hsync rfl, waiting_of_active hs hl, htopic, Topic.since_advance, hlen]
    rcases le_total count ((b.topic s.channel).since position).length with hc | hc
    · rw [min_eq_left hc]
    · rw [min_eq_right hc, List.drop_length, List.drop_eq_nil_of_le hc]

theorem subscribe_starts (hs : b.synchronizers[id]? = some s) (hc : s.closed = false)
    (hl : s.listening = .idle) :
    ∃ position, (b.subscribe id).2.synchronizers[id]? =
        some { s with listening := .active position } ∧
      ((b.subscribe id).2.topic s.channel).lostSince position = 0 ∧
      (b.subscribe id).2.waiting id = [] := by
  have hsub : (b.subscribe id).2 = b.modify id fun s =>
      { s with listening := .active (b.topic s.channel).sent } := by
    unfold subscribe
    rw [hs]
    dsimp only
    rw [hc, hl]
    rfl
  have hsync := getElem?_modify_self hs fun s =>
    { s with listening := .active (b.topic s.channel).sent }
  have hnone : (b.topic s.channel).sent - (b.topic s.channel).sent = 0 := Nat.sub_self _
  rw [hsub]
  refine ⟨_, hsync, ?_, (waiting_of_active hsync rfl).trans ?_⟩
  · exact (congrArg (· - _) hnone).trans (Nat.zero_sub _)
  · exact congrArg (fun n => ((b.topic s.channel).retained.take n).reverse) hnone

/-- A synchronizer that starts has lost nothing of what is left to it, which is something only if it
did not take all that waited. -/
theorem Starts.listens {r : BusRequest κ} (hr : b.Starts id r) (h : b.Sound) :
    ∃ s position, (b.serve r).synchronizers[id]? = some s ∧ s.listening = .active position ∧
      ((b.serve r).topic s.channel).lostSince position = 0 ∧
      ((∀ count, r ≠ .take id count) → (b.serve r).waiting id = []) := by
  cases r with
  | subscribe j =>
    obtain ⟨rfl, s, hs, hc, hl⟩ := hr
    obtain ⟨position, hsync, hlost, hw⟩ := subscribe_starts hs hc hl
    exact ⟨_, position, hsync, rfl, hlost, fun _ => hw⟩
  | take j count =>
    obtain ⟨rfl, s, position, hs, hl⟩ := hr
    obtain ⟨position', hsync, hlost, -⟩ := take_starts h hs hl count
    exact ⟨_, position', hsync, rfl, hlost, fun hne => absurd rfl (hne count)⟩
  | run j =>
    obtain ⟨rfl, s, position, hs, hl⟩ := hr
    obtain ⟨position', hsync, hlost, hw⟩ := take_starts h hs hl (b.pending j)
    refine ⟨_, position', hsync, rfl, hlost, fun _ => hw.trans ?_⟩
    rw [pending_eq, List.drop_length]
  | _ => exact hr.elim

/-- A listener that takes all that waits for it processes what was left to it when it started or
took some the last time, and what was sent on its channel since, each payload once and in order; of
more payloads than the bus retains it processes the last ones and is told how many were lost.  It
listens on in any case.  The bus retains the least power of two that is at least the number asked
for. -/
theorem run_of_starts (n : Nat) {early late : List (BusRequest κ)} {start : BusRequest κ}
    {id : Nat} (hs : ((withCapacity n).after early).Starts id start)
    (hl : ∀ r ∈ late, r.Spares id) :
    let capacity := leastPowerOfTwo (max 1 n)
    let b := ((withCapacity n).after early).serve start
    let c := b.after late
    ((∃ k, capacity = 2 ^ k) ∧ max 1 n ≤ capacity ∧ ∀ k, max 1 n ≤ 2 ^ k → capacity ≤ 2 ^ k) ∧
    ((∀ count, start ≠ .take id count) → b.waiting id = []) ∧
    ∃ s, b.synchronizers[id]? = some s ∧
      let unheard := b.waiting id ++ b.sendsAll s.channel late
      let listeners := late.foldl (Listeners.register id) s.listeners
      (c.run id).1 =
        (if unheard.length ≤ capacity then [] else [.lagged (unheard.length - capacity)]) ++
          (unheard.rtake capacity).flatMap listeners.told ∧
      (c.run id).2.waiting id = [] ∧
      ∃ position, (c.run id).2.synchronizers[id]? =
        some { s with listeners, listening := .active position } := by
  intro capacity b c
  have hearly := (sound_withCapacity n).after (κ := κ) early
  have hb := hearly.serve start
  obtain ⟨s, position, hsync, hactive, hlost, hnone⟩ := hs.listens hearly
  refine ⟨⟨exists_leastPowerOfTwo_eq _, le_leastPowerOfTwo _, fun k => leastPowerOfTwo_le⟩, hnone,
    s,
    hsync, ?_⟩
  intro unheard listeners
  have hcap : b.capacity = capacity := (capacity_serve _ _).trans (capacity_after _ _)
  have hle : (b.topic s.channel).retained.length ≤ capacity := hcap ▸ hb.retained_le s.channel
  have hpos := (hb.follows id s hsync).le_sent position hactive
  have hwaits : b.waiting id = (b.topic s.channel).since position :=
    waiting_of_active hsync hactive
  -- the topic of the channel has received what was sent in the meantime
  have htopic : c.topic s.channel =
      (b.topic s.channel).sendAll capacity (b.sendsAll s.channel late) :=
    hcap ▸ topic_after b late s.channel
  have hsince : (c.topic s.channel).since position = unheard.rtake capacity := by
    rw [htopic, Topic.since_sendAll hpos hle, ← hwaits]
  have hlag : (c.topic s.channel).lostSince position = unheard.length - capacity := by
    rw [htopic, Topic.lostSince_sendAll hle hlost hpos, ← hwaits]
  have hcsync : c.synchronizers[id]? = some { s with listeners } :=
    synchronizer_after hl hsync hactive
  have hc : c.Sound := hb.after late
  have hcwaits := waiting_of_active hcsync hactive
  have hpending : c.pending id = ((c.topic s.channel).since position).length := by
    rw [pending_eq, hcwaits]
  obtain ⟨hcalls, -⟩ := take_of_active hcsync hactive (hc.follows id _ hcsync).plain (c.pending id)
  obtain ⟨position', hrun, -, hrest⟩ := take_starts hc hcsync hactive (c.pending id)
  refine ⟨hcalls.trans ?_, hrest.trans ?_, position', hrun⟩
  · dsimp only
    rw [hpending, List.take_length, hlag, hsince]
    simp only [Nat.sub_eq_zero_iff_le]
  · rw [pending_eq, List.drop_length]

/-- A synchronizer with a callback of each kind. -/
def attached : List (BusRequest String) :=
  [.synchronizer "ch" "a", .listen 0 "x", .listenErrors 0 "y"]

/-- Three payloads for it and one on another channel, and one more callback. -/
def threePayloads : List (BusRequest String) :=
  [.publishRaw "ch" [], .publishRaw "ch" (Event.delete "k" "b").encode, .publishRaw "other" [],
    .listen 0 "z", .publishRaw "ch" (Event.clear "a").encode]

theorem run_of_starts_past_capacity :
    let b := ((withCapacity 2).after attached).serve (.subscribe 0)
    let c := b.after threePayloads
    (c.run 0).1 =
      [.lagged 1, .event "x" (Event.delete "k" "b"), .event "z" (Event.delete "k" "b")] ∧
      (c.run 0).2.waiting 0 = [] := by
  have hs : ((withCapacity 2).after attached).Starts 0 (.subscribe 0) := ⟨rfl, _, rfl, rfl, rfl⟩
  have hl : ∀ r ∈ threePayloads, r.Spares 0 := by simp [threePayloads, BusRequest.Spares]
  obtain ⟨-, -, s, -, -, hrest, -⟩ := run_of_starts 2 hs hl
  exact ⟨by decide +kernel, hrest⟩

end Bus

end PodCache
