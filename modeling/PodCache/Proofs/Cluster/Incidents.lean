import PodCache.Proofs.Bus.Apart
import PodCache.Proofs.Cluster.Steps
import PodCache.Proofs.Pod.Blind

/-!
# Incidents

Whatever can happen to a cluster is an incident: pods come and go, are asked something or delivered
something, and the store and the bus are used by others too.  What an incident comes to and what it
leaves is the same in clusters that differ in the synchronizer of a pod that has no part in it
(`Apart.undergo`).
-/

namespace PodCache

variable {V : Type}

/-- Something that happens to a cluster. -/
inductive Incident (V : Type) where
  /-- A pod is asked something, through any of its clones. -/
  | call (i : Nat) (op : Operation V)
  /-- A pod is delivered at most `count` of the payloads that wait for it. -/
  | deliver (i count : Nat)
  /-- What waits in the local cache of a pod is applied. -/
  | maintain (i : Nat)
  | build (chance : Chance) (b : Builder V) (instanceId channel : String) (faults : Faults)
  /-- The last clone of a pod goes away. -/
  | drop (i : Nat) (keepSynchronizer : Bool)
  | setFault (i : Nat) (point : Point) (fault : Fault)
  | publishRaw (channel : String) (payload : Bytes)
  | storeSet (key : String) (value : Bytes)
  | storeGet (key : String)

/-- What an incident comes to. -/
inductive Outcome (V : Type) where
  | answered (answer : Answer V) (notes : List Note)
  /-- The pod that was asked does not exist. -/
  | absent
  | heard (notes : List Note)
  | built (b : Cluster.Built)
  | reached (count : Nat)
  | stored (result : Except Error Unit)
  | found (result : Except Error Bytes)
  | quiet

/-- What an answer of a pod comes to, if there is one. -/
def Outcome.ofAnswer : Option (Answer V × List Note) → Outcome V
  | some (answer, notes) => .answered answer notes
  | none => .absent

/-- Whether a pod is asked something or delivered something. -/
def Incident.Concerns (i : Nat) : Incident V → Prop
  | .call j _ | .deliver j _ => j = i
  | _ => False

instance (i : Nat) (x : Incident V) : Decidable (x.Concerns i) :=
  match x with
  | .call j _ | .deliver j _ => inferInstanceAs (Decidable (j = i))
  | .maintain _ | .build .. | .drop .. | .setFault .. | .publishRaw .. | .storeSet ..
  | .storeGet _ => inferInstanceAs (Decidable False)

/-- Whether a pod goes away. -/
def Incident.Drops (i : Nat) : Incident V → Prop
  | .drop j _ => j = i
  | _ => False

instance (i : Nat) (x : Incident V) : Decidable (x.Drops i) :=
  match x with
  | .drop j _ => inferInstanceAs (Decidable (j = i))
  | .call .. | .deliver .. | .maintain _ | .build .. | .setFault .. | .publishRaw .. | .storeSet ..
  | .storeGet _ => inferInstanceAs (Decidable False)

namespace Cluster

/-- What an incident comes to, and the cluster afterwards. -/
def undergo (c : Cluster V) : Incident V → Outcome V × Cluster V
  | .call i op =>
    let (done, c) := c.act i fun services => op.perform services
    (.ofAnswer done, c)
  | .deliver i count => (c.deliver i count).map .heard id
  | .maintain i => (.quiet, c.maintain i)
  | .build chance b instanceId channel faults =>
    (c.build chance b instanceId channel faults).map .built id
  | .drop i keepSynchronizer => (.quiet, c.drop i keepSynchronizer)
  | .setFault i point fault => (.quiet, c.setFault i point fault)
  | .publishRaw channel payload => (c.publishRaw channel payload).map .reached id
  | .storeSet key value => (c.storeSet key value).map .stored id
  | .storeGet key => (.found (c.storeGet key), c)

/-- A cluster after incidents in turn. -/
def afterAll (c : Cluster V) (xs : List (Incident V)) : Cluster V :=
  xs.foldl (fun c x => (c.undergo x).2) c

/-- Incidents in turn with what they come to. -/
def history (c : Cluster V) : List (Incident V) → List (Incident V × Outcome V)
  | [] => []
  | x :: xs => (x, (c.undergo x).1) :: (c.undergo x).2.history xs

end Cluster

/-! ## Clusters that differ in one synchronizer -/

namespace Shared

/-- The same store, and buses that differ in one synchronizer at most. -/
structure Apart (i : Nat) (s s' : Synchronizer Unit) (w w' : Shared Unit) : Prop where
  store : w'.store = w.store
  bus : Bus.Apart i s s' w.bus w'.bus

variable {i j : Nat} {s s' : Synchronizer Unit}

/-- The services of a pod do not depend on the synchronizer of another. -/
theorem blind_services (hj : j ≠ i) (handle : Nat) :
    Services.Blind (Apart i s s') (services handle j) := by
  rintro r ⟨store, bus⟩ ⟨store', bus'⟩ ⟨hstore, hbus⟩
  obtain rfl : store' = store := hstore
  dsimp only at hbus
  cases r with
  | storeGet key => exact ⟨rfl, rfl, rfl, hbus⟩
  | storeSet key value => exact ⟨rfl, rfl, rfl, hbus⟩
  | storeDelete key => exact ⟨rfl, rfl, rfl, hbus⟩
  | storeClear => exact ⟨rfl, rfl, rfl, hbus⟩
  | storeClose => exact ⟨rfl, rfl, rfl, hbus⟩
  | subscribe =>
    obtain ⟨hr, ha⟩ := hbus.subscribe hj
    exact ⟨rfl, congrArg emptyValue hr, rfl, ha⟩
  | publish event =>
    obtain ⟨hr, ha⟩ := hbus.publish hj event
    exact ⟨rfl, congrArg emptyValue hr, rfl, ha⟩
  | synchronizerClose => exact ⟨rfl, rfl, rfl, hbus.modify hj _⟩

end Shared

namespace Cluster

/-- The same pods, and services that differ in one synchronizer at most. -/
structure Apart (i : Nat) (s s' : Synchronizer Unit) (c c' : Cluster V) : Prop where
  members : c'.members = c.members
  shared : Shared.Apart i s s' c.shared c'.shared

variable {c c' : Cluster V} {i j : Nat} {s s' : Synchronizer Unit} {α : Type}

theorem Apart.refl (h : c.shared.bus.synchronizers[i]? = some s) : Apart i s s c c :=
  ⟨rfl, rfl, .refl h⟩

theorem Apart.trans {s'' : Synchronizer Unit} {c'' : Cluster V} (h : Apart i s s' c c')
    (h' : Apart i s' s'' c' c'') : Apart i s s'' c c'' :=
  ⟨h'.members.trans h.members, h'.shared.store.trans h.shared.store,
    h.shared.bus.trans h'.shared.bus⟩

theorem Apart.eq (h : Apart i s s c c') : c' = c := by
  obtain ⟨⟨store, bus⟩, members⟩ := c
  obtain ⟨⟨store', bus'⟩, members'⟩ := c'
  obtain ⟨rfl, rfl, hbus⟩ := h
  rw [show bus' = bus from hbus.eq]

theorem Apart.modify (h : Apart i s s' c c') (f : Member V → Member V) :
    Apart i s s' (c.modify j f) (c'.modify j f) :=
  ⟨by rw [Cluster.modify, Cluster.modify, h.members], h.shared⟩

/-- A step of another pod. -/
theorem Apart.act (h : Apart i s s' c c') (step : Services (Shared Unit) → Act V (Shared Unit) α)
    (hstep : ∀ faults, Pod.Blind (Shared.Apart i s s') (step (services j faults))) :
    (c.act j step).1 = (c'.act j step).1 ∧ Apart i s s' (c.act j step).2 (c'.act j step).2 := by
  obtain ⟨w, members⟩ := c
  obtain ⟨w', members'⟩ := c'
  obtain ⟨hmembers, hshared⟩ := h
  obtain rfl : members' = members := hmembers
  unfold Cluster.act
  dsimp only
  rcases members'[j]? with _ | ⟨_ | pod, faults⟩
  · exact ⟨rfl, rfl, hshared⟩
  · exact ⟨rfl, rfl, hshared⟩
  · have hend := hstep faults pod [] w w' hshared
    dsimp only
    generalize hr : step (services j faults) { pod, world := w } = end₁
    generalize hr' : step (services j faults) { pod, world := w' } = end₂
    have hsame : Pod.SameEnd (Shared.Apart i s s') end₁ end₂ := hr ▸ hr' ▸ hend
    obtain ⟨a, pod₁, w₁, notes₁⟩ := end₁
    obtain ⟨a₂, pod₂, w₂, notes₂⟩ := end₂
    obtain ⟨ha, hpod, hnotes, hworld⟩ := hsame
    cases ha
    cases hpod
    cases hnotes
    exact ⟨rfl, rfl, hworld⟩

theorem Apart.react (h : Apart i s s' c c') (hj : j ≠ i) (o : Occurrence Unit) :
    (c.react j o).1 = (c'.react j o).1 ∧ Apart i s s' (c.react j o).2 (c'.react j o).2 := by
  cases o with
  | event callback e =>
    obtain ⟨hr, ha⟩ := h.act (j := j) (fun _ => Pod.handleEvent e) fun _ =>
      Pod.blind_handleEvent e
    exact ⟨congrArg (fun done => (done.map Prod.snd).getD []) hr, ha⟩
  | failure callback e =>
    obtain ⟨hr, ha⟩ := h.act (j := j) (fun _ => Pod.report e) fun _ => Pod.blind_report e
    exact ⟨congrArg (fun done => (done.map Prod.snd).getD []) hr, ha⟩
  | undecodable e => exact ⟨rfl, h⟩
  | lagged skipped =>
    refine ⟨?_, h⟩
    unfold Cluster.react
    dsimp only
    rw [h.shared.bus.touches.others j hj]

theorem Apart.reactAll (h : Apart i s s' c c') (hj : j ≠ i) (os : List (Occurrence Unit)) :
    (c.reactAll j os).1 = (c'.reactAll j os).1 ∧
      Apart i s s' (c.reactAll j os).2 (c'.reactAll j os).2 := by
  induction os generalizing c c' with
  | nil => exact ⟨rfl, h⟩
  | cons o os ih =>
    obtain ⟨hfirst, ha⟩ := h.react hj o
    obtain ⟨hrest, ha'⟩ := ih ha
    exact ⟨congrArg₂ (· ++ ·) hfirst hrest, ha'⟩

theorem Apart.deliver (h : Apart i s s' c c') (hj : j ≠ i) (count : Nat) :
    (c.deliver j count).1 = (c'.deliver j count).1 ∧
      Apart i s s' (c.deliver j count).2 (c'.deliver j count).2 := by
  obtain ⟨hoccurrences, hbus⟩ := h.shared.bus.take hj count
  unfold Cluster.deliver
  dsimp only
  rw [hoccurrences]
  have moved : Apart i s s'
      { c with shared := { c.shared with bus := (c.shared.bus.take j count).2 } }
      { c' with shared := { c'.shared with bus := (c'.shared.bus.take j count).2 } } :=
    ⟨h.members, h.shared.store, hbus⟩
  exact moved.reactAll hj _

theorem Apart.drop (h : Apart i s s' c c') (hj : j ≠ i) (keepSynchronizer : Bool) :
    Apart i s s' (c.drop j keepSynchronizer) (c'.drop j keepSynchronizer) := by
  have hm := h.modify (j := j) fun m => { m with pod := none }
  unfold Cluster.drop
  dsimp only
  split_ifs
  · exact hm
  · exact ⟨hm.members, hm.shared.store, hm.shared.bus.modify hj _⟩

theorem Apart.join (h : Apart i s s' c c') (hi : i < c.members.size) (member : Member V)
    (instanceId channel : String) :
    Apart i s s' (c.join member instanceId channel) (c'.join member instanceId channel) := by
  have hbus := ((h.shared.bus.synchronizer channel instanceId).modify hi.ne'
    fun t => { t with listeners := t.listeners.listen { name := () } }).modify hi.ne'
    fun t => { t with listeners := t.listeners.listenErrors () }
  unfold Cluster.join
  rw [h.members]
  exact ⟨rfl, congrArg (fun store => store.clone.2) h.shared.store, hbus⟩

theorem Apart.build (h : Apart i s s' c c') (hi : i < c.members.size) (chance : Chance)
    (b : Builder V) (instanceId channel : String) (faults : Faults) :
    (c.build chance b instanceId channel faults).1 =
        (c'.build chance b instanceId channel faults).1 ∧
      Apart i s s' (c.build chance b instanceId channel faults).2
        (c'.build chance b instanceId channel faults).2 := by
  unfold Cluster.build
  rw [h.members]
  dsimp only
  cases b.pod chance instanceId channel with
  | error e => exact ⟨rfl, (h.join hi _ _ _).drop hi.ne' false⟩
  | ok pod =>
    obtain ⟨hr, ha⟩ := (h.join hi { pod := some pod, faults } instanceId channel).act
      (j := c.members.size) Pod.start fun faults =>
        Pod.blind_start ((Shared.blind_services hi.ne' _).disturbed faults)
    dsimp only
    generalize (c.join { pod := some pod, faults } instanceId channel).act c.members.size
      Pod.start = end₁ at hr ha ⊢
    generalize (c'.join { pod := some pod, faults } instanceId channel).act c.members.size
      Pod.start = end₂ at hr ha ⊢
    obtain ⟨answer, c₁⟩ := end₁
    obtain ⟨answer', c₂⟩ := end₂
    obtain rfl : answer = answer' := hr
    rcases answer with _ | ⟨e | _, notes⟩
    · exact ⟨rfl, ha⟩
    · exact ⟨rfl, ha.drop hi.ne' false⟩
    · exact ⟨rfl, ha⟩

/-- What an incident comes to does not depend on the synchronizer of a pod that has no part in it,
but for its channel and whether payloads reach it. -/
theorem Apart.undergo (h : Apart i s s' c c') (hi : i < c.members.size)
    (hc : s'.channel = s.channel) (hr : s'.listening.isReached = s.listening.isReached)
    {x : Incident V} (hx : ¬ x.Concerns i) (hd : ¬ x.Drops i) :
    (c.undergo x).1 = (c'.undergo x).1 ∧ Apart i s s' (c.undergo x).2 (c'.undergo x).2 := by
  cases x with
  | call j op =>
    obtain ⟨hr, ha⟩ := h.act (j := j) (fun services => op.perform services) fun faults =>
      Pod.blind_perform ((Shared.blind_services hx _).disturbed faults) op
    exact ⟨congrArg Outcome.ofAnswer hr, ha⟩
  | deliver j count =>
    obtain ⟨hr, ha⟩ := h.deliver hx count
    exact ⟨congrArg Outcome.heard hr, ha⟩
  | maintain j => exact ⟨rfl, h.modify _⟩
  | build chance b instanceId channel faults =>
    obtain ⟨hr, ha⟩ := h.build hi chance b instanceId channel faults
    exact ⟨congrArg Outcome.built hr, ha⟩
  | drop j keepSynchronizer => exact ⟨rfl, h.drop hd keepSynchronizer⟩
  | setFault j point fault => exact ⟨rfl, h.modify _⟩
  | publishRaw channel payload =>
    refine ⟨congrArg Outcome.reached (h.shared.bus.reached hc hr channel).symm, h.members,
      h.shared.store, h.shared.bus.publishRaw channel payload⟩
  | storeSet key value =>
    have hstore := h.shared.store
    refine ⟨?_, h.members, ?_, h.shared.bus⟩
    · show Outcome.stored (c.shared.store.set _ key value).1 =
        .stored (c'.shared.store.set _ key value).1
      rw [hstore]
    · show (c'.shared.store.set _ key value).2 = (c.shared.store.set _ key value).2
      rw [hstore]
  | storeGet key =>
    refine ⟨?_, h⟩
    show Outcome.found (c.shared.store.get _ key) = .found (c'.shared.store.get _ key)
    rw [h.shared.store]

end Cluster

end PodCache
