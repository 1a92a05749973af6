import PodCache.Proofs.Cluster.Coherence
import PodCache.Proofs.Cluster.Served

/-!
# Closed pods in a cluster

Once a pod has been closed, whatever it is asked is refused, whatever it is delivered is ignored,
and the store, the bus and the other pods go on as if nothing of it had happened
(`close_is_absorbing`).  If the synchronizer failed to close, it goes on in its topic, and that is
the only trace.
-/

namespace PodCache

variable {V α : Type}

/-- A synchronizer after what may happen to it without its owner: it may have gone on in its
topic. -/
structure Synchronizer.Follows {κ : Type} (s s' : Synchronizer κ) : Prop where
  channel : s'.channel = s.channel
  reached : s'.listening.isReached = s.listening.isReached
  idle : s.listening = .idle → s' = s

theorem Synchronizer.Follows.refl {κ : Type} (s : Synchronizer κ) : s.Follows s :=
  ⟨rfl, rfl, fun _ => rfl⟩

theorem Synchronizer.Follows.trans {κ : Type} {s s' s'' : Synchronizer κ} (h : s.Follows s')
    (h' : s'.Follows s'') : s.Follows s'' := by
  refine ⟨h'.channel.trans h.channel, h'.reached.trans h.reached, fun hidle => ?_⟩
  have hs := h.idle hidle
  exact (h'.idle (hs ▸ hidle)).trans hs

namespace Listeners

variable {κ : Type}

theorem event_of_mem_dispatch (l : Listeners κ) (e : Event) {o : Occurrence κ}
    (ho : o ∈ (l.dispatch e).1) : ∃ callback e, o = .event callback e := by
  have runs : ∀ (callbacks : List (Callback κ)) (state : List (Occurrence κ) × Listeners κ),
      (∀ o ∈ state.1, ∃ callback e, o = .event callback e) →
      ∀ o ∈ (callbacks.foldl (run e) state).1, ∃ callback e, o = .event callback e := by
    intro callbacks
    induction callbacks with
    | nil => exact fun _ hs => hs
    | cons c cs ih =>
      intro state hs
      apply ih
      intro o ho
      rcases List.mem_append.1 ho with ho | ho
      · exact hs o ho
      · exact ⟨c.name, e, List.mem_singleton.1 ho⟩
  unfold dispatch at ho
  split_ifs at ho
  · cases ho
  · exact runs _ _ (fun _ hn => by cases hn) o ho

/-- Payloads that are events make nothing happen but events. -/
theorem event_of_mem_dispatchAll (l : Listeners κ) {payloads : List Bytes}
    (h : ∀ payload ∈ payloads, (Event.decode payload).isOk) {o : Occurrence κ}
    (ho : o ∈ (l.dispatchAll payloads).1) : ∃ callback e, o = .event callback e := by
  induction payloads generalizing l with
  | nil => cases ho
  | cons payload payloads ih =>
    rw [List.forall_mem_cons] at h
    rcases List.mem_append.1 ho with hfirst | hrest
    · obtain ⟨e, he⟩ : ∃ e, Event.decode payload = .ok e := by
        cases hd : Event.decode payload with
        | ok e => exact ⟨e, rfl⟩
        | error _ =>
          have hok := h.1
          rw [hd] at hok
          cases hok
      rw [he] at hfirst
      exact event_of_mem_dispatch l e hfirst
    · exact ih _ h.2 hrest

end Listeners

namespace Note

/-- A note about a payload that is no event, or about payloads that were lost. -/
def IsComplaint : Note → Prop
  | logged (.eventUndecodable _) | logged (.lagged ..) | reported _ => True
  | _ => False

/-- A note about payloads that were lost. -/
def IsLoss : Note → Prop
  | logged (.lagged ..) => True
  | _ => False

end Note

/-- An event or a loss, but no payload that should not have been sent. -/
def Occurrence.IsExpected {κ : Type} : Occurrence κ → Prop
  | .event .. | .lagged _ => True
  | .failure .. | .undecodable _ => False

/-- A synchronizer that takes payloads goes on in its topic, and is told of events if it was sent
nothing else. -/
theorem Bus.follows_take {κ : Type} {b : Bus κ} {i : Nat} {s : Synchronizer κ}
    (hs : b.synchronizers[i]? = some s) (ho : s.IsOwned) (count : Nat) :
    ∃ s', s.Follows s' ∧ Apart i s s' b (b.take i count).2 ∧
      (s.listening = .idle → (b.take i count).1 = []) ∧
      ((∀ payload ∈ b.waiting i, (Event.decode payload).isOk) →
        ∀ o ∈ (b.take i count).1, o.IsExpected) := by
  unfold Bus.take
  rw [hs]
  dsimp only
  cases hl : s.listening with
  | idle => exact ⟨s, .refl s, .refl hs, fun _ => rfl, fun _ _ hn => by cases hn⟩
  | ending => exact absurd hl ho.notEnding
  | active position =>
    dsimp only
    have hw : b.waiting i = (b.topic s.channel).since position := by
      obtain ⟨channel, listeners, listening, closed⟩ := s
      obtain rfl : listening = .active position := hl
      rw [waiting, hs]
    refine ⟨_, ?_, apart_modify hs _, fun hi => ?_, fun hd o hmem => ?_⟩
    · exact ⟨rfl, by rw [hl]; rfl, fun h => by cases hl.symm.trans h⟩
    · cases hi
    · have told : ∀ o ∈ (s.listeners.dispatchAll
          (((b.topic s.channel).since position).take count)).1, o.IsExpected := by
        intro o hmem
        obtain ⟨callback, e, rfl⟩ := s.listeners.event_of_mem_dispatchAll
          (fun payload hp => hd payload (hw ▸ List.mem_of_mem_take hp)) hmem
        trivial
      split_ifs at hmem
      · exact told o hmem
      · rcases List.mem_cons.1 hmem with rfl | hmem
        · trivial
        · exact told o hmem

theorem Pod.run_report {ω : Type} (e : Error) (p : Pod V) (w : ω) :
    ∃ notes, (report e).run ⟨p, w, []⟩ = ((), ⟨p, w, notes⟩) ∧ ∀ n ∈ notes, n = .reported e := by
  show ∃ notes, (if p.settings.hasHandler = true then note (.reported e)
    else pure () : Act V ω Unit).run ⟨p, w, []⟩ = _ ∧ _
  split_ifs
  · exact ⟨[.reported e], rfl, by simp⟩
  · exact ⟨[], rfl, by simp⟩

namespace Cluster

variable {c c' : Cluster V} {i : Nat} {pod : Pod V} {s s' : Synchronizer Unit} {x : Incident V}

/-- A pod has been closed, and is as closing left it, but for what its empty local cache makes of
being maintained. -/
structure Rests (i : Nat) (pod : Pod V) (s : Synchronizer Unit) (c : Cluster V) : Prop where
  place : ∃ localCache faults, localCache.metrics.size = 0 ∧
    c.members[i]? = some { pod := some { pod with closed := true, localCache }, faults }
  synchronizer : c.shared.bus.synchronizers[i]? = some s

theorem Rests.lt (h : c.Rests i pod s) : i < c.members.size := by
  obtain ⟨_, _, _, hm⟩ := h.place
  exact (Array.getElem?_eq_some_iff.1 hm).1

/-! ## What a closed pod does -/

theorem act_eq (step : Services (Shared Unit) → Act V (Shared Unit) α) {faults : Faults} {a : α}
    {pod' : Pod V} {w : Shared Unit} {notes : List Note}
    (hm : c.members[i]? = some { pod := some pod, faults })
    (hstep : (step (services i faults)).run ⟨pod, c.shared, []⟩ = (a, ⟨pod', w, notes⟩)) :
    c.act i step = (some (a, notes),
      { shared := w, members := c.members.modify i fun m => { m with pod := some pod' } }) := by
  unfold act
  rw [hm]
  dsimp only
  rw [show step (services i faults) ⟨pod, c.shared, []⟩ = _ from hstep]
  rfl

/-- A step that changes nothing. -/
theorem act_of_unchanged (step : Services (Shared Unit) → Act V (Shared Unit) α) {faults : Faults}
    {a : α} {notes : List Note} (hm : c.members[i]? = some { pod := some pod, faults })
    (hstep : (step (services i faults)).run ⟨pod, c.shared, []⟩ = (a, ⟨pod, c.shared, notes⟩)) :
    c.act i step = (some (a, notes), c) := by
  have hsame : c.members.modify i (fun m => { m with pod := some pod }) = c.members := by
    refine Array.ext_getElem? fun j => ?_
    rw [Array.getElem?_modify]
    split_ifs with hj
    · rw [← hj, hm]
      rfl
    · rfl
  rw [act_eq step hm hstep, hsame]

/-- Whatever the pod is asked, it refuses. -/
theorem Rests.call (h : c.Rests i pod s) (op : Operation V) :
    c.undergo (.call i op) = (.answered (op.refusal pod.stats) [], c) := by
  obtain ⟨localCache, faults, hsize, hm⟩ := h.place
  have hact := act_of_unchanged (fun services => op.perform services) hm
    (op.perform_of_isSilent (services i faults) ⟨rfl, hsize⟩)
  unfold undergo
  dsimp only
  rw [hact]
  rfl

/-- The pod does nothing about an event, and only complains about other things. -/
theorem Rests.react (h : c.Rests i pod s) (o : Occurrence Unit) :
    ∃ notes, c.react i o = (notes, c) ∧ (∀ n ∈ notes, n.IsComplaint) ∧
      (o.IsExpected → ∀ n ∈ notes, n.IsLoss) := by
  obtain ⟨localCache, faults, hsize, hm⟩ := h.place
  unfold Cluster.react
  cases o with
  | event callback e =>
    have hact := act_of_unchanged (fun _ => Pod.handleEvent e) hm
      (Pod.run_of_closed rfl () _)
    refine ⟨[], ?_, by simp, by simp⟩
    dsimp only
    rw [hact]
    rfl
  | failure callback e =>
    obtain ⟨notes, hrun, hnotes⟩ := Pod.run_report e
      ({ pod with closed := true, localCache } : Pod V) c.shared
    have hact := act_of_unchanged (fun _ => Pod.report e) hm hrun
    refine ⟨notes, ?_, fun n hn => ?_, False.elim⟩
    · dsimp only
      rw [hact]
      rfl
    · rw [hnotes n hn]
      trivial
  | undecodable e => exact ⟨_, rfl, by simp [Note.IsComplaint], False.elim⟩
  | lagged skipped => exact ⟨_, rfl, by simp [Note.IsComplaint], by simp [Note.IsLoss]⟩

theorem Rests.reactAll (h : c.Rests i pod s) (os : List (Occurrence Unit)) :
    ∃ notes, c.reactAll i os = (notes, c) ∧ (∀ n ∈ notes, n.IsComplaint) ∧
      ((∀ o ∈ os, o.IsExpected) → ∀ n ∈ notes, n.IsLoss) := by
  induction os with
  | nil => exact ⟨[], rfl, by simp, by simp⟩
  | cons o os ih =>
    obtain ⟨first, hfirst, hcomplaint, hloss⟩ := h.react o
    obtain ⟨rest, hrest, hcomplaints, hlosses⟩ := ih
    refine ⟨first ++ rest, ?_, ?_, fun ho => ?_⟩
    · unfold Cluster.reactAll
      rw [hfirst]
      dsimp only
      rw [hrest]
    · exact List.forall_mem_append.2 ⟨hcomplaint, hcomplaints⟩
    · rw [List.forall_mem_cons] at ho
      exact List.forall_mem_append.2 ⟨hloss ho.1, hlosses ho.2⟩

/-- What is delivered to the pod moves its synchronizer on, and that is all. -/
theorem Rests.deliver (h : c.Rests i pod s) (ho : s.IsOwned) (count : Nat) :
    ∃ notes s', (c.undergo (.deliver i count)).1 = .heard notes ∧
      (∀ n ∈ notes, n.IsComplaint) ∧
      ((∀ payload ∈ c.shared.bus.waiting i, (Event.decode payload).isOk) →
        ∀ n ∈ notes, n.IsLoss) ∧
      (s.listening = .idle → notes = []) ∧ s.Follows s' ∧
      Apart i s s' c (c.undergo (.deliver i count)).2 := by
  obtain ⟨s', hfollows, hbus, hidle, hexpected⟩ := Bus.follows_take h.synchronizer ho count
  have moved : Rests i pod s'
      { c with shared := { c.shared with bus := (c.shared.bus.take i count).2 } } :=
    ⟨h.place, hbus.right⟩
  obtain ⟨notes, hreact, hcomplaint, hloss⟩ := moved.reactAll (c.shared.bus.take i count).1
  have hdeliver : c.undergo (.deliver i count) = (.heard notes,
      { c with shared := { c.shared with bus := (c.shared.bus.take i count).2 } }) := by
    unfold undergo Cluster.deliver
    dsimp only
    rw [hreact]
    rfl
  rw [hdeliver]
  refine ⟨notes, s', rfl, hcomplaint, fun hd => hloss (hexpected hd), fun hl => ?_, hfollows,
    rfl, rfl, hbus⟩
  rw [hidle hl] at hreact
  exact (congrArg Prod.fst hreact).symm

/-! ## What happens around a closed pod -/

theorem members_drop (c : Cluster V) {i j : Nat} (hj : j ≠ i) (keepSynchronizer : Bool) :
    (c.drop j keepSynchronizer).members[i]? = c.members[i]? := by
  have hm := (sways_modify c j (f := fun m => { m with pod := none })
    fun m hm => absurd hm Bool.false_ne_true).others i hj.symm
  unfold Cluster.drop
  dsimp only
  split_ifs <;> exact hm

theorem members_build (c : Cluster V) (hi : i ≠ c.members.size) (chance : Chance) (b : Builder V)
    (instanceId channel : String) (faults : Faults) :
    (c.build chance b instanceId channel faults).2.members[i]? = c.members[i]? := by
  have joined : ∀ member, (c.join member instanceId channel).members[i]? = c.members[i]? :=
    fun member => (Array.getElem?_push).trans (if_neg hi)
  unfold Cluster.build
  dsimp only
  cases b.pod chance instanceId channel with
  | error e => exact (members_drop _ hi.symm false).trans (joined _)
  | ok pod =>
    dsimp only
    have hstart := (sways_act (c.join { pod := some pod, faults } instanceId channel)
      (i := c.members.size) Pod.start fun faults =>
        Pod.blind_start ((Shared.blind_services_kept _ _ _).disturbed faults)).others i hi
    rw [joined] at hstart
    generalize (c.join { pod := some pod, faults } instanceId channel).act c.members.size
      Pod.start = done at hstart ⊢
    obtain ⟨_ | ⟨e | _, notes⟩, c'⟩ := done
    · exact hstart
    · exact (members_drop c' hi.symm false).trans hstart
    · exact hstart

/-- What happens to others, or to all, leaves a pod as it is, but for what waits in its local
cache. -/
theorem exists_member_undergo {m : Member V} (hm : c.members[i]? = some m) (hx : ¬ x.Concerns i)
    (hd : ¬ x.Drops i) : ∃ m', (c.undergo x).2.members[i]? = some m' ∧
      (m'.pod = m.pod ∨ m'.pod = m.pod.map Pod.maintain) := by
  have hlt : i < c.members.size := (Array.getElem?_eq_some_iff.1 hm).1
  have unmoved : (c.undergo x).2.members[i]? = c.members[i]? → ∃ m',
      (c.undergo x).2.members[i]? = some m' ∧
        (m'.pod = m.pod ∨ m'.pod = m.pod.map Pod.maintain) :=
    fun hsame => ⟨m, hsame.trans hm, .inl rfl⟩
  cases x with
  | call j op =>
    exact unmoved ((sways_act c (fun services => op.perform services) fun faults =>
      Pod.blind_perform ((Shared.blind_services_kept _ _ _).disturbed faults) op).others i
        (Ne.symm hx))
  | deliver j count => exact unmoved ((sways_deliver c j count).others i (Ne.symm hx))
  | maintain j =>
    by_cases hj : j = i
    · obtain rfl := hj
      exact ⟨_, (Array.getElem?_modify).trans ((if_pos rfl).trans (congrArg (Option.map _) hm)),
        .inr rfl⟩
    · exact unmoved ((Array.getElem?_modify).trans (if_neg hj))
  | build chance b instanceId channel faults => exact unmoved (members_build c hlt.ne _ _ _ _ _)
  | drop j keepSynchronizer => exact unmoved (members_drop c hd keepSynchronizer)
  | setFault j point fault =>
    by_cases hj : j = i
    · obtain rfl := hj
      exact ⟨_, (Array.getElem?_modify).trans ((if_pos rfl).trans (congrArg (Option.map _) hm)),
        .inl rfl⟩
    · exact unmoved ((Array.getElem?_modify).trans (if_neg hj))
  | publishRaw | storeSet | storeGet => exact unmoved rfl

/-- The synchronizer of a pod does not change with what happens to others. -/
theorem synchronizer_undergo (hs : c.shared.bus.synchronizers[i]? = some s)
    (hlt : i < c.members.size) (hx : ¬ x.Concerns i) (hd : ¬ x.Drops i) :
    (c.undergo x).2.shared.bus.synchronizers[i]? = some s :=
  ((Apart.refl hs).undergo hlt rfl rfl hx hd).2.shared.bus.left

/-- A closed pod has no part in what else happens. -/
theorem Rests.undergo (h : c.Rests i pod s) (hx : ¬ x.Concerns i) (hd : ¬ x.Drops i) :
    (c.undergo x).2.Rests i pod s := by
  obtain ⟨localCache, faults, hsize, hm⟩ := h.place
  obtain ⟨⟨_, faults'⟩, hm', rfl | rfl⟩ := exists_member_undergo hm hx hd
  · exact ⟨⟨localCache, faults', hsize, hm'⟩, synchronizer_undergo h.synchronizer h.lt hx hd⟩
  · exact ⟨⟨localCache.maintain, faults', LocalCache.size_maintain hsize, hm'⟩,
      synchronizer_undergo h.synchronizer h.lt hx hd⟩

theorem Rests.apart (h : c.Rests i pod s) (ha : Apart i s s' c c') : c'.Rests i pod s' :=
  ⟨ha.members ▸ h.place, ha.shared.bus.right⟩

/-- What the pod is asked or delivered shows in its synchronizer at most. -/
theorem Rests.undergo_own (h : c.Rests i pod s) (ho : s.IsOwned) (hx : x.Concerns i) :
    ∃ s', s.Follows s' ∧ Apart i s s' c (c.undergo x).2 := by
  cases x with
  | call j op =>
    obtain rfl : j = i := hx
    rw [h.call op]
    exact ⟨s, .refl s, .refl h.synchronizer⟩
  | deliver j count =>
    obtain rfl : j = i := hx
    obtain ⟨_, s', _, _, _, _, hf, ha⟩ := h.deliver ho count
    exact ⟨s', hf, ha⟩
  | maintain | build | drop | setFault | publishRaw | storeSet | storeGet => exact hx.elim

theorem Rests.isOwned (h : c.Rests i pod s) (hs : c.Served) : s.IsOwned := by
  obtain ⟨localCache, faults, -, hm⟩ := h.place
  obtain ⟨s', hs', ho⟩ := hs.owned i _ (by rw [pod?, hm]; rfl)
  obtain rfl : s = s' := Option.some.inj (h.synchronizer.symm.trans hs')
  exact ho

/-- The same incidents without what the pod is asked and delivered. -/
def sparing (i : Nat) (xs : List (Incident V)) : List (Incident V) :=
  xs.filter fun x => ¬ x.Concerns i

/-- The induction over a run: the same run without what the pod is asked and delivered comes to the
same, and leaves the same but for the synchronizer. -/
theorem Rests.afterAll (h : c'.Rests i pod s') (hserved : c'.Served) (hf : s.Follows s')
    (ha : Apart i s s' c c') {later : List (Incident V)} (hl : ∀ x ∈ later, ¬ x.Drops i) :
    ∃ t, (c'.afterAll later).Rests i pod t ∧ s.Follows t ∧
      Apart i s t (c.afterAll (sparing i later)) (c'.afterAll later) ∧
      c.history (sparing i later) =
        (c'.history later).filter fun entry => ¬ entry.1.Concerns i := by
  induction later generalizing c c' s' with
  | nil => exact ⟨s', h, hf, ha, rfl⟩
  | cons x later ih =>
    rw [List.forall_mem_cons] at hl
    by_cases hx : x.Concerns i
    · obtain ⟨s'', hf', ha'⟩ := h.undergo_own (h.isOwned hserved) hx
      have rest := ih (h.apart ha') (hserved.undergo x) (hf.trans hf') (ha.trans ha') hl.2
      rw [sparing, List.filter_cons_of_neg (by simpa using hx), history,
        List.filter_cons_of_neg (by simpa using hx)]
      exact rest
    · obtain ⟨hout, ha'⟩ := ha.undergo (ha.members ▸ h.lt) hf.channel hf.reached hx hl.1
      obtain ⟨t, ht, hft, hat, hhistory⟩ := ih (h.undergo hx hl.1) (hserved.undergo x) hf ha' hl.2
      rw [sparing, List.filter_cons_of_pos (by simpa using hx), history, history,
        List.filter_cons_of_pos (by simpa using hx)]
      exact ⟨t, ht, hft, hat, congrArg₂ List.cons (by rw [hout]) hhistory⟩

/-! ## Closing -/

/-- The bus once a pod has closed what it holds: only its synchronizer may fail to close. -/
theorem bus_of_closings (i : Nat) (faults : Faults) (w : Shared Unit) :
    ((services i faults).wait .storeClose
        ((services i faults).wait .synchronizerClose w).2).2.bus =
      if (faults .synchronizerClose).failure = none then w.bus.close i else w.bus := by
  have store : ∀ w : Shared Unit, ((services i faults).wait .storeClose w).2.bus = w.bus := by
    intro w
    unfold Services.wait services Services.disturbed
    dsimp only [Request.point]
    cases (faults .storeClose).failure <;> rfl
  rw [store]
  unfold Services.wait services Services.disturbed
  dsimp only [Request.point]
  cases (faults .synchronizerClose).failure <;> rfl

theorem rests_close {faults : Faults} (hs : c.Served)
    (hm : c.members[i]? = some { pod := some pod, faults }) (ho : pod.closed = false) :
    ∃ s, (c.undergo (.call i .close)).2.Rests i pod s ∧
      ((faults .synchronizerClose).failure = none → s.listening = .idle) := by
  obtain ⟨s, hsync, howned⟩ := hs.owned i pod (by rw [pod?, hm]; rfl)
  obtain ⟨notes, hclose, -⟩ := Pod.does_close (services i faults) c.shared ho []
  have hact := act_eq (fun services => Operation.close.perform services) hm
    (Pod.run_map Answer.result hclose)
  have hplace : (c.undergo (.call i .close)).2.members[i]? = some
      { pod := some { pod with closed := true, localCache := pod.localCache.close }, faults } := by
    unfold undergo
    dsimp only
    rw [hact]
    dsimp only
    rw [Array.getElem?_modify, if_pos rfl, hm]
    rfl
  have hbus : (c.undergo (.call i .close)).2.shared.bus =
      if (faults .synchronizerClose).failure = none then c.shared.bus.close i
      else c.shared.bus := by
    unfold undergo
    dsimp only
    rw [hact]
    exact bus_of_closings i faults c.shared
  by_cases hf : (faults .synchronizerClose).failure = none
  · rw [if_pos hf] at hbus
    obtain ⟨s', hs', hidle⟩ := Bus.idle_close hsync howned
    exact ⟨s', ⟨⟨_, faults, pod.localCache.size_close, hplace⟩, hbus ▸ hs'⟩, fun _ => hidle⟩
  · rw [if_neg hf] at hbus
    exact ⟨s, ⟨⟨_, faults, pod.localCache.size_close, hplace⟩, hbus ▸ hsync⟩, fun h => absurd h hf⟩

/-- What becomes of a cluster in which a pod has been closed, and of what that pod is asked and
delivered among other things. -/
structure Absorbs (i : Nat) (pod : Pod V) (c : Cluster V) (later : List (Incident V)) : Prop where
  /-- The pod stays closed and empty; its counters stay, and its transform decides on nothing. -/
  stays : ∃ localCache, localCache.metrics.size = 0 ∧
    (c.afterAll later).pod? i = some { pod with closed := true, localCache }
  /-- What the pod is asked next is refused.  Nothing is noted, so no request is sent and no
  callback runs, and nothing changes. -/
  refuses : ∀ op, (c.afterAll later).undergo (.call i op) =
    (.answered (op.refusal pod.stats) [], c.afterAll later)
  /-- What is delivered to the pod next moves its synchronizer on at most.  Events are not
  noticed. -/
  ignores : ∀ count, ∃ notes s s',
    ((c.afterAll later).undergo (.deliver i count)).1 = .heard notes ∧
      (∀ n ∈ notes, n.IsComplaint) ∧
      ((∀ payload ∈ (c.afterAll later).shared.bus.waiting i, (Event.decode payload).isOk) →
        ∀ n ∈ notes, n.IsLoss) ∧
      Apart i s s' (c.afterAll later) ((c.afterAll later).undergo (.deliver i count)).2
  /-- All else comes to the same as if the pod had been asked and delivered nothing. -/
  outcomes : c.history (sparing i later) =
    (c.history later).filter fun entry => ¬ entry.1.Concerns i
  /-- The store, the pods and the bus are as if the pod had been asked and delivered nothing, but
  for its synchronizer. -/
  world : ∃ s s', s.Follows s' ∧ Apart i s s' (c.afterAll (sparing i later)) (c.afterAll later)

/-- Closing a pod is final, whatever happens later, as long as a clone of the pod is there: it
refuses what it is asked, ignores what it is delivered, keeps its counters with no local entries,
and neither the services nor the other pods can tell whether it was asked or delivered anything.
Unless its synchronizer failed to close, no delivery leaves any trace. -/
theorem close_is_absorbing {c : Cluster V} {i : Nat} {pod : Pod V} {faults : Faults}
    {later : List (Incident V)} (hs : c.Served)
    (hm : c.members[i]? = some { pod := some pod, faults }) (ho : pod.closed = false)
    (hl : ∀ x ∈ later, ¬ x.Drops i) :
    let closed := (c.undergo (.call i .close)).2
    closed.Absorbs i pod later ∧
      ((faults .synchronizerClose).failure = none →
        closed.afterAll later = closed.afterAll (sparing i later) ∧
          ∀ count, (closed.afterAll later).undergo (.deliver i count) =
            (.heard [], closed.afterAll later)) := by
  intro closed
  obtain ⟨s, hrests, hidle⟩ := rests_close hs hm ho
  have hserved : closed.Served := hs.undergo _
  obtain ⟨t, ht, hf, ha, hhistory⟩ :=
    hrests.afterAll hserved (.refl s) (.refl hrests.synchronizer) hl
  have howned : t.IsOwned := ht.isOwned (hserved.afterAll later)
  constructor
  · refine ⟨?_, ht.call, fun count => ?_, hhistory, s, t, hf, ha⟩
    · obtain ⟨localCache, faults, hsize, hm⟩ := ht.place
      exact ⟨localCache, hsize, by rw [pod?, hm]; rfl⟩
    · obtain ⟨notes, t', hout, hcomplaint, hloss, -, -, ha'⟩ := ht.deliver howned count
      exact ⟨notes, t, t', hout, hcomplaint, hloss, ha'⟩
  · intro hclean
    obtain rfl : t = s := hf.idle (hidle hclean)
    refine ⟨ha.eq, fun count => ?_⟩
    obtain ⟨notes, t', hout, -, -, hnone, hf', ha'⟩ := ht.deliver howned count
    obtain rfl : t' = t := hf'.idle (hidle hclean)
    exact Prod.ext (by rw [hout, hnone (hidle hclean)]) ha'.eq

/-- One of two pods is closed after a write; then the other writes, and the closed one is delivered
the event and asked this and that. -/
theorem close_is_absorbing_beside_writer :
    let c : Cluster Bool := (withCapacity 4).afterAll
      [.build Chance.standard (boolBuilder "a") "a" defaultChannel Faults.none,
        .build Chance.standard (boolBuilder "b") "b" defaultChannel Faults.none,
        .call 0 (.write (.set .value "k" true))]
    let later : List (Incident Bool) :=
      [.call 1 (.write (.set .value "k" false)), .deliver 0 1, .call 0 (.get "k"),
        .call 0 (.write .clear), .call 0 .close, .call 1 (.get "k")]
    let closed := (c.undergo (.call 0 .close)).2
    c.Served ∧ (∀ x ∈ later, ¬ x.Drops 0) ∧
      ∃ pod faults, c.members[0]? = some { pod := some pod, faults } ∧ pod.closed = false ∧
        closed.Absorbs 0 pod later ∧
          ((faults .synchronizerClose).failure = none →
            closed.afterAll later = closed.afterAll (sparing 0 later) ∧
              ∀ count, (closed.afterAll later).undergo (.deliver 0 count) =
                (.heard [], closed.afterAll later)) := by
  intro c later closed
  have hs : c.Served := (served_withCapacity 4).afterAll _
  have hl : ∀ x ∈ later, ¬ x.Drops 0 := by decide
  have hopen : (c.pod? 0).map Pod.closed = some false := by decide +kernel
  obtain ⟨pod, hpod, ho⟩ := Option.map_eq_some_iff.1 hopen
  obtain ⟨⟨_, faults⟩, hm, rfl⟩ := Option.bind_eq_some_iff.1 hpod
  exact ⟨hs, hl, pod, faults, hm, ho, close_is_absorbing hs hm ho hl⟩

end Cluster

end PodCache
