import PodCache.Proofs.Bus.Delivery

/-!
# Registries that grow

Callbacks may register further callbacks while an event is told.  An event is told to the callbacks
that were registered before it came, each once and in the order of their registration; who is
registered meanwhile is told later events only (`told_of_run`).  So every event that is told adds
the same number of callbacks (`length_onEvent_after`).
-/

namespace PodCache

/-- The callbacks that a callback registers each time it runs. -/
def Callback.offspring {κ : Type} (c : Callback κ) : List (Callback κ) :=
  c.registers.map fun name => { name }

/-- What a registry may be asked to do. -/
inductive RegistryRequest (κ : Type) where
  | listen (callback : Callback κ)
  | listenErrors (name : κ)
  | dispatch (e : Event)
  | dispatchBytes (payload : Bytes)
  | report (e : Error)

/-- Only a decoding failure keeps a payload from being an event. -/
theorem Event.deserialization_of_decode {payload : Bytes} {e : Error}
    (h : Event.decode payload = .error e) : ∃ detail, e = .deserialization detail := by
  unfold Event.decode at h
  split at h
  · cases h
  · exact ⟨_, (Except.error.inj h).symm⟩

namespace RegistryRequest

variable {κ : Type}

/-- The event that a request brings, whoever sent it. -/
def event? : RegistryRequest κ → Option Event
  | .dispatch e => some e
  | .dispatchBytes payload => (Event.decode payload).toOption
  | _ => none

/-- The event that a request brings, unless the participant sent it itself. -/
def peerEvent? (instanceId : String) (r : RegistryRequest κ) : Option Event :=
  r.event?.filter fun e => e.sender ≠ instanceId

/-- The callbacks for events that are registered by a request, given those that are there: one
directly, or what those register that are told an event. -/
def joins (instanceId : String) (present : List (Callback κ)) :
    RegistryRequest κ → List (Callback κ)
  | .listen c => [c]
  | r =>
    match r.peerEvent? instanceId with
    | some _ => present.flatMap Callback.offspring
    | none => []

/-- The callback for failures that is registered by a request. -/
def errorCallback? : RegistryRequest κ → Option κ
  | .listenErrors name => some name
  | _ => none

/-- What a request makes of the callbacks for failures. -/
def failures (watching : List κ) : RegistryRequest κ → List (Occurrence κ)
  | .dispatchBytes payload =>
    match Event.decode payload with
    | .ok _ => []
    | .error e => .undecodable e :: watching.map (.failure · e)
  | .report e => watching.map (.failure · e)
  | _ => []

end RegistryRequest

namespace Listeners

variable {κ : Type} {l : Listeners κ}

/-- What happens at a request, and the registry after it. -/
def serve (l : Listeners κ) : RegistryRequest κ → List (Occurrence κ) × Listeners κ
  | .listen c => ([], l.listen c)
  | .listenErrors name => ([], l.listenErrors name)
  | .dispatch e => l.dispatch e
  | .dispatchBytes payload => l.dispatchBytes payload
  | .report e => (l.report e, l)

/-- The registry after requests. -/
def after (l : Listeners κ) (rs : List (RegistryRequest κ)) : Listeners κ :=
  rs.foldl (fun l r => (l.serve r).2) l

/-- What happens at each of the requests. -/
def answers (l : Listeners κ) : List (RegistryRequest κ) → List (List (Occurrence κ))
  | [] => []
  | r :: rs => (l.serve r).1 :: (l.serve r).2.answers rs

/-! ## One request -/

theorem foldl_listen (l : Listeners κ) (names : List κ) :
    names.foldl (fun l name => l.listen { name }) l =
      { l with onEvent := l.onEvent ++ names.map fun name => { name } } := by
  induction names generalizing l with
  | nil => simp
  | cons name names ih =>
    rw [List.foldl_cons, ih]
    simp [listen]

/-- Walking a snapshot of the callbacks runs each of them once, whatever they register. -/
theorem foldl_run (e : Event) (cs : List (Callback κ)) (done : List (Occurrence κ))
    (l : Listeners κ) :
    cs.foldl (run e) (done, l) =
      (done ++ cs.map fun c => .event c.name e,
        { l with onEvent := l.onEvent ++ cs.flatMap Callback.offspring }) := by
  induction cs generalizing done l with
  | nil => simp
  | cons c cs ih =>
    rw [List.foldl_cons, run, foldl_listen, ih]
    simp [Callback.offspring]

theorem dispatch_of_peer {e : Event} (h : e.sender ≠ l.instanceId) :
    l.dispatch e =
      (l.onEvent.map fun c => .event c.name e,
        { l with onEvent := l.onEvent ++ l.onEvent.flatMap Callback.offspring }) := by
  rw [dispatch, if_neg h, foldl_run, List.nil_append]

theorem dispatch_of_own {e : Event} (h : e.sender = l.instanceId) : l.dispatch e = ([], l) := by
  rw [dispatch, if_pos h]

/-- What happens at a request, by the callbacks that are there when it comes. -/
theorem serve_fst (l : Listeners κ) (r : RegistryRequest κ) :
    (l.serve r).1 =
      match r.peerEvent? l.instanceId with
      | some e => l.onEvent.map fun c => .event c.name e
      | none => r.failures l.onError := by
  have told (e : Event) : (l.dispatch e).1 =
      match (some e).filter fun e => e.sender ≠ l.instanceId with
      | some e => l.onEvent.map fun c => .event c.name e
      | none => [] := by
    by_cases h : e.sender = l.instanceId
    · rw [dispatch_of_own h, Option.filter_some_neg (by simpa using h)]
    · rw [dispatch_of_peer h, Option.filter_some_pos (by simpa using h)]
  cases r with
  | listen c => rfl
  | listenErrors name => rfl
  | report e => rfl
  | dispatch e => exact told e
  | dispatchBytes payload =>
    simp only [serve, dispatchBytes, RegistryRequest.peerEvent?, RegistryRequest.event?,
      RegistryRequest.failures]
    cases Event.decode payload with
    | error e => rfl
    | ok e => exact told e

/-- A request registers callbacks behind those that are there. -/
theorem serve_snd (l : Listeners κ) (r : RegistryRequest κ) :
    (l.serve r).2 =
      { l with
        onEvent := l.onEvent ++ r.joins l.instanceId l.onEvent
        onError := l.onError ++ r.errorCallback?.toList } := by
  have grown (e : Event) : (l.dispatch e).2 =
      { l with
        onEvent := l.onEvent ++
          match (some e).filter fun e => e.sender ≠ l.instanceId with
          | some _ => l.onEvent.flatMap Callback.offspring
          | none => [] } := by
    by_cases h : e.sender = l.instanceId
    · rw [dispatch_of_own h, Option.filter_some_neg (by simpa using h), List.append_nil]
    · rw [dispatch_of_peer h, Option.filter_some_pos (by simpa using h)]
  cases r with
  | listen c =>
    simp only [RegistryRequest.errorCallback?, Option.toList_none, List.append_nil]
    rfl
  | listenErrors name => exact congrArg (Listeners.mk _ · _) (List.append_nil _).symm
  | report e => exact congrArg₂ (Listeners.mk _) (List.append_nil _).symm (List.append_nil _).symm
  | dispatch e =>
    simp only [RegistryRequest.errorCallback?, Option.toList_none, List.append_nil]
    exact grown e
  | dispatchBytes payload =>
    simp only [RegistryRequest.errorCallback?, Option.toList_none, List.append_nil, serve,
      dispatchBytes, RegistryRequest.joins, RegistryRequest.peerEvent?, RegistryRequest.event?]
    cases Event.decode payload with
    | error e => exact congrArg (Listeners.mk _ · _) (List.append_nil _).symm
    | ok e => exact grown e

theorem after_cons (l : Listeners κ) (r : RegistryRequest κ) (rs : List (RegistryRequest κ)) :
    l.after (r :: rs) = (l.serve r).2.after rs := rfl

theorem after_append (l : Listeners κ) (rs rs' : List (RegistryRequest κ)) :
    l.after (rs ++ rs') = (l.after rs).after rs' := List.foldl_append

theorem instanceId_after (l : Listeners κ) (rs : List (RegistryRequest κ)) :
    (l.after rs).instanceId = l.instanceId := by
  induction rs generalizing l with
  | nil => rfl
  | cons r rs ih => rw [after_cons, ih, serve_snd]

theorem onError_after (l : Listeners κ) (rs : List (RegistryRequest κ)) :
    (l.after rs).onError = l.onError ++ rs.filterMap RegistryRequest.errorCallback? := by
  induction rs generalizing l with
  | nil => simp [after]
  | cons r rs ih =>
    rw [after_cons, ih, serve_snd]
    cases h : r.errorCallback? <;> simp [h]

/-- What happens at a request in the middle of a run. -/
theorem answers_append (l : Listeners κ) (rs : List (RegistryRequest κ)) (r : RegistryRequest κ)
    (rs' : List (RegistryRequest κ)) :
    (l.answers (rs ++ r :: rs'))[rs.length]? = some ((l.after rs).serve r).1 := by
  induction rs generalizing l with
  | nil => rfl
  | cons r' rs ih => exact ih (l.serve r').2

/-! ## The roll -/

/-- The callbacks for events with the number of requests up to their registration, after more
requests. -/
def rollFrom (instanceId : String) (time : Nat) (present : List (Nat × Callback κ)) :
    List (RegistryRequest κ) → List (Nat × Callback κ)
  | [] => present
  | r :: rs =>
    rollFrom instanceId (time + 1)
      (present ++ (r.joins instanceId (present.map Prod.snd)).map (time + 1, ·)) rs

/-- The callbacks for events in the order of their registration, each with the number of requests up
to the one that registered it; zero for those of the beginning. -/
def roll (l : Listeners κ) (rs : List (RegistryRequest κ)) : List (Nat × Callback κ) :=
  rollFrom l.instanceId 0 (l.onEvent.map (0, ·)) rs

/-- The callbacks for events that the first requests of a run have registered, and those of the
beginning. -/
def registered (l : Listeners κ) (rs : List (RegistryRequest κ)) (count : Nat) :
    List (Callback κ) :=
  ((l.roll rs).filter (·.1 ≤ count)).map Prod.snd

theorem rollFrom_append (instanceId : String) (time : Nat) (present : List (Nat × Callback κ))
    (rs rs' : List (RegistryRequest κ)) :
    rollFrom instanceId time present (rs ++ rs') =
      rollFrom instanceId (time + rs.length) (rollFrom instanceId time present rs) rs' := by
  induction rs generalizing time present with
  | nil => rfl
  | cons r rs ih =>
    rw [List.cons_append, rollFrom, ih, rollFrom, List.length_cons, Nat.add_right_comm,
      Nat.add_assoc]

/-- Later requests only add later callbacks. -/
theorem rollFrom_eq_append (instanceId : String) (time : Nat) (present : List (Nat × Callback κ))
    (rs : List (RegistryRequest κ)) :
    ∃ late, rollFrom instanceId time present rs = present ++ late ∧
      ∀ x ∈ late, time < x.1 ∧ x.1 ≤ time + rs.length := by
  induction rs generalizing time present with
  | nil => exact ⟨[], (List.append_nil _).symm, nofun⟩
  | cons r rs ih =>
    obtain ⟨late, hlate, hbounds⟩ := ih (time + 1)
      (present ++ (r.joins instanceId (present.map Prod.snd)).map (time + 1, ·))
    refine ⟨_, by rw [rollFrom, hlate, List.append_assoc], fun x hx => ?_⟩
    rw [List.length_cons]
    rcases List.mem_append.1 hx with hx | hx
    · obtain ⟨c, -, rfl⟩ := List.mem_map.1 hx
      dsimp only
      omega
    · have := hbounds x hx
      omega

theorem le_of_mem_roll {rs : List (RegistryRequest κ)} {x : Nat × Callback κ}
    (h : x ∈ l.roll rs) : x.1 ≤ rs.length := by
  obtain ⟨late, hlate, hbounds⟩ := rollFrom_eq_append l.instanceId 0 (l.onEvent.map (0, ·)) rs
  rw [roll, hlate] at h
  rcases List.mem_append.1 h with h | h
  · obtain ⟨c, -, rfl⟩ := List.mem_map.1 h
    exact Nat.zero_le _
  · have := hbounds x h
    omega

/-- The part of the roll up to some time is the roll of the requests up to then. -/
theorem filter_roll (l : Listeners κ) (rs rs' : List (RegistryRequest κ)) :
    (l.roll (rs ++ rs')).filter (·.1 ≤ rs.length) = l.roll rs := by
  obtain ⟨late, hlate, hbounds⟩ :=
    rollFrom_eq_append l.instanceId (0 + rs.length) (l.roll rs) rs'
  rw [roll, rollFrom_append, ← roll, hlate, List.filter_append,
    List.filter_eq_self.2 fun x hx => decide_eq_true (le_of_mem_roll hx),
    List.filter_eq_nil_iff.2 fun x hx => ?_, List.append_nil]
  have := hbounds x hx
  simp only [decide_eq_true_eq]
  omega

theorem onEvent_after (l : Listeners κ) (rs : List (RegistryRequest κ)) :
    (l.after rs).onEvent = (l.roll rs).map Prod.snd := by
  induction rs using List.reverseRecOn with
  | nil => simp [after, roll, rollFrom]
  | append_singleton rs r ih =>
    rw [after_append, roll, rollFrom_append, ← roll]
    simp only [after, List.foldl_cons, List.foldl_nil, rollFrom, List.map_append]
    rw [serve_snd, ← after, ih, instanceId_after]
    simp

/-- Who is registered at some time of a run is who the registry holds then. -/
theorem registered_append (l : Listeners κ) (rs rs' : List (RegistryRequest κ)) :
    l.registered (rs ++ rs') rs.length = (l.after rs).onEvent := by
  rw [registered, filter_roll, onEvent_after]

theorem registered_succ (l : Listeners κ) (rs : List (RegistryRequest κ)) (r : RegistryRequest κ)
    (rs' : List (RegistryRequest κ)) :
    l.registered (rs ++ r :: rs') (rs.length + 1) =
      (l.after rs).onEvent ++ r.joins l.instanceId (l.after rs).onEvent := by
  have hlast := l.registered_append (rs ++ [r]) rs'
  rw [List.append_assoc, List.singleton_append, List.length_append, List.length_singleton] at hlast
  rw [hlast, after_append, after_cons, serve_snd, instanceId_after]
  rfl

/-- What a run does at a request: an event of a peer is told to the callbacks that were registered
before, each once and in order, and that is the end of it; an own event is told to nobody and
registers nothing; payloads that are no events and reports go to the callbacks for failures. -/
structure Takes (l : Listeners κ) (rs : List (RegistryRequest κ)) (i : Nat)
    (r : RegistryRequest κ) : Prop where
  peer : ∀ e, r.event? = some e → e.sender ≠ l.instanceId →
    (l.answers rs)[i]? = some ((l.registered rs i).map fun c => .event c.name e)
  own : ∀ e, r.event? = some e → e.sender = l.instanceId →
    (l.answers rs)[i]? = some [] ∧ l.registered rs (i + 1) = l.registered rs i
  undecodable : ∀ payload e, r = .dispatchBytes payload → Event.decode payload = .error e →
    (∃ detail, e = .deserialization detail) ∧
      (l.answers rs)[i]? = some (.undecodable e ::
        (l.onError ++ (rs.take i).filterMap RegistryRequest.errorCallback?).map (.failure · e)) ∧
      l.registered rs (i + 1) = l.registered rs i
  report : ∀ e, r = .report e →
    (l.answers rs)[i]? = some
        ((l.onError ++ (rs.take i).filterMap RegistryRequest.errorCallback?).map (.failure · e)) ∧
      l.registered rs (i + 1) = l.registered rs i
  joins : l.registered rs (i + 1) =
    l.registered rs i ++ r.joins l.instanceId (l.registered rs i)

/-! ## How many callbacks there are -/

/-- How many callbacks an event of a peer adds. -/
def growth (l : Listeners κ) : Nat := (l.onEvent.map fun c => c.registers.length).sum

theorem growth_eq_countP (h : ∀ c ∈ l.onEvent, c.registers.length ≤ 1) :
    l.growth = l.onEvent.countP fun c => !c.registers.isEmpty := by
  rw [growth]
  generalize l.onEvent = cs at h
  induction cs with
  | nil => rfl
  | cons c cs ih =>
    obtain ⟨hc, hcs⟩ := List.forall_mem_cons.1 h
    rw [List.map_cons, List.sum_cons, ih hcs, List.countP_cons]
    rcases hr : c.registers with _ | ⟨name, _ | _⟩
    · exact Nat.zero_add _
    · exact Nat.add_comm 1 _
    · simp [hr] at hc

/-- The callbacks that are registered while an event is told register none themselves. -/
theorem sum_registers_offspring (cs : List (Callback κ)) :
    ((cs.flatMap Callback.offspring).map fun c => c.registers.length).sum = 0 := by
  rw [List.sum_eq_zero_iff]
  intro n hn
  obtain ⟨c, hc, rfl⟩ := List.mem_map.1 hn
  obtain ⟨parent, -, hc⟩ := List.mem_flatMap.1 hc
  obtain ⟨name, -, rfl⟩ := List.mem_map.1 hc
  rfl

theorem length_flatMap_offspring (cs : List (Callback κ)) :
    (cs.flatMap Callback.offspring).length = (cs.map fun c => c.registers.length).sum := by
  simp [List.length_flatMap, Callback.offspring]

/-- Only a direct registration changes how many callbacks an event adds, and each event of a peer
adds so many. -/
theorem serve_of_indirect {r : RegistryRequest κ} (h : ∀ c, r ≠ .listen c) :
    (l.serve r).2.growth = l.growth ∧
      (l.serve r).2.onEvent.length =
        l.onEvent.length + l.growth * (r.peerEvent? l.instanceId).toList.length := by
  have hjoins : r.joins l.instanceId l.onEvent =
      match r.peerEvent? l.instanceId with
      | some _ => l.onEvent.flatMap Callback.offspring
      | none => [] := by
    cases r with
    | listen c => exact absurd rfl (h c)
    | _ => rfl
  rw [growth, serve_snd, hjoins]
  cases r.peerEvent? l.instanceId with
  | none => exact ⟨by rw [List.append_nil, growth], by simp⟩
  | some e =>
    constructor
    · rw [List.map_append, List.sum_append, sum_registers_offspring, Nat.add_zero, growth]
    · rw [List.length_append, length_flatMap_offspring, growth, Option.toList_some,
        List.length_singleton, Nat.mul_one]

/-- After the last direct registration every event of a peer adds the same number of callbacks. -/
theorem length_onEvent_after {rs : List (RegistryRequest κ)} (h : ∀ r ∈ rs, ∀ c, r ≠ .listen c) :
    (l.after rs).onEvent.length =
      l.onEvent.length +
        l.growth * (rs.filterMap (RegistryRequest.peerEvent? l.instanceId)).length := by
  induction rs generalizing l with
  | nil => rfl
  | cons r rs ih =>
    obtain ⟨hr, hrs⟩ := List.forall_mem_cons.1 h
    obtain ⟨hgrowth, hlength⟩ := serve_of_indirect (l := l) hr
    have hid : (l.serve r).2.instanceId = l.instanceId := by rw [serve_snd]
    rw [after_cons, ih hrs, hgrowth, hlength, hid, List.filterMap_cons, Nat.add_assoc,
      ← Nat.mul_add]
    cases r.peerEvent? l.instanceId with
    | none => rw [Option.toList_none, List.length_nil, Nat.zero_add]
    | some e => rw [Option.toList_some, List.length_singleton, Nat.add_comm 1]; rfl

/-! ## Runs -/

theorem joins_of_quiet {instanceId : String} {r : RegistryRequest κ}
    (hr : ∀ c, r ≠ .listen c) (h : r.peerEvent? instanceId = none) (present : List (Callback κ)) :
    r.joins instanceId present = [] := by
  cases r with
  | listen c => exact absurd rfl (hr c)
  | _ => simp only [RegistryRequest.joins, h]

theorem takes (l : Listeners κ) (rs : List (RegistryRequest κ)) (r : RegistryRequest κ)
    (rs' : List (RegistryRequest κ)) : l.Takes (rs ++ r :: rs') rs.length r := by
  have hanswer := l.answers_append rs r rs'
  have hnext := l.registered_succ rs r rs'
  rw [serve_fst, instanceId_after, onError_after] at hanswer
  rw [← l.registered_append rs (r :: rs')] at hanswer hnext
  have hquiet (hr : ∀ c, r ≠ .listen c) (h : r.peerEvent? l.instanceId = none) :
      l.registered (rs ++ r :: rs') (rs.length + 1) =
        l.registered (rs ++ r :: rs') rs.length := by
    rw [hnext, joins_of_quiet hr h, List.append_nil]
  constructor
  · intro e he hs
    have hpeer : r.peerEvent? l.instanceId = some e := by
      rw [RegistryRequest.peerEvent?, he, Option.filter_some_pos (by simpa using hs)]
    rw [hanswer, hpeer]
  · intro e he hs
    have hpeer : r.peerEvent? l.instanceId = none := by
      rw [RegistryRequest.peerEvent?, he, Option.filter_some_neg (by simpa using hs)]
    rw [hpeer] at hanswer
    cases r with
    | dispatch _ => exact ⟨hanswer, hquiet nofun hpeer⟩
    | dispatchBytes payload =>
      cases hd : Event.decode payload with
      | error _ => simp [RegistryRequest.event?, hd, Except.toOption] at he
      | ok _ =>
        simp only [RegistryRequest.failures, hd] at hanswer
        exact ⟨hanswer, hquiet nofun hpeer⟩
    | _ => cases he
  · rintro payload e rfl hd
    have hpeer : (RegistryRequest.dispatchBytes payload : RegistryRequest κ).peerEvent?
        l.instanceId = none := by
      rw [RegistryRequest.peerEvent?, RegistryRequest.event?, hd]
      rfl
    rw [hpeer] at hanswer
    simp only [RegistryRequest.failures, hd] at hanswer
    rw [List.take_left]
    exact ⟨Event.deserialization_of_decode hd, hanswer, hquiet nofun hpeer⟩
  · rintro e rfl
    rw [List.take_left]
    exact ⟨hanswer, hquiet nofun rfl⟩
  · exact hnext

/-- In every run of a registry each event of a peer is told to the callbacks that were registered
before it came, each once and in the order of their registration; those that are registered while it
is told are told later events only.  Own events run and register nothing, and payloads that are no
events run the callbacks for failures.  After the last direct registration every event of a peer
adds the same number of callbacks: one for each callback that registers one. -/
theorem told_of_run (l : Listeners κ) (rs : List (RegistryRequest κ)) :
    (∀ (i : Nat) (r : RegistryRequest κ), rs[i]? = some r → l.Takes rs i r) ∧
    (l.after rs).onEvent = l.registered rs rs.length ∧
    ∀ later : List (RegistryRequest κ), (∀ r ∈ later, ∀ c, r ≠ .listen c) →
      (l.after (rs ++ later)).onEvent.length =
        (l.after rs).onEvent.length + (l.after rs).growth *
          (later.filterMap (RegistryRequest.peerEvent? l.instanceId)).length ∧
      ((∀ c ∈ (l.after rs).onEvent, c.registers.length ≤ 1) →
        (l.after rs).growth = (l.after rs).onEvent.countP fun c => !c.registers.isEmpty) := by
  refine ⟨fun i r hi => ?_, ?_, fun later h => ⟨?_, growth_eq_countP⟩⟩
  · obtain ⟨hlt, rfl⟩ := List.getElem?_eq_some_iff.1 hi
    have htake := l.takes (rs.take i) rs[i] (rs.drop (i + 1))
    rwa [List.length_take_of_le hlt.le, List.getElem_cons_drop, List.take_append_drop] at htake
  · have hall := l.registered_append rs []
    rw [List.append_nil] at hall
    exact hall.symm
  · rw [after_append, length_onEvent_after h, instanceId_after]

/-- Requests to a registry: a callback that registers another one each time it runs, and one event
before and after a plain callback is registered. -/
def growingRequests : List (RegistryRequest String) :=
  [.listen ⟨"grow", ["new"]⟩, .dispatch (.clear "peer"), .listen ⟨"plain", []⟩,
    .dispatchBytes (Event.clear "peer").encode]

theorem told_of_run_with_offspring :
    let l : Listeners String := { instanceId := "own" }
    let later : List (RegistryRequest String) :=
      [.dispatch (.clear "own"), .dispatch (.clear "peer")]
    (l.answers growingRequests)[3]? =
        some [.event "grow" (.clear "peer"), .event "new" (.clear "peer"),
          .event "plain" (.clear "peer")] ∧
      (l.after (growingRequests ++ later)).onEvent.length = 4 + 1 * 1 := by
  intro l later
  obtain ⟨htakes, -, hlength⟩ := told_of_run l growingRequests
  have hdecode : Event.decode (Event.clear "peer").encode = .ok (.clear "peer") := by
    decide +kernel
  have hseen : l.registered growingRequests 3 =
      [⟨"grow", ["new"]⟩, ⟨"new", []⟩, ⟨"plain", []⟩] := by decide +kernel
  obtain ⟨hlength, hgrowth⟩ := hlength later (by simp [later])
  refine ⟨?_, hlength.trans ?_⟩
  · rw [(htakes 3 _ rfl).peer (.clear "peer") (by rw [RegistryRequest.event?, hdecode]; rfl)
      (by decide), hseen]
    rfl
  · rw [hgrowth (by decide +kernel)]
    decide +kernel

end Listeners

end PodCache
