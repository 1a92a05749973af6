import PodCache.Cluster.Delivery
import PodCache.Proofs.Bus.Delivery
import PodCache.Proofs.Pod.Operations

/-!
# Turns of pods in a cluster

A pod that acts, or that something is delivered to, changes its own place in the cluster and the
services that all share.  `Cluster.Acts` says so, and gives the core that the pod ends up with;
`Cluster.Turn` says the same of a pod that is still open afterwards.
-/

namespace PodCache

/-- The services once another pod has been given a store handle and a synchronizer, and listens. -/
def Shared.welcome (w : Shared Unit) (channel name : String) : Shared Unit where
  store := w.store.clone.2
  bus := ((w.bus.attach channel name).subscribe w.bus.synchronizers.size).2

theorem Builder.pod_eq_of_ok {V : Type} (b : Builder V) {chance : Chance}
    {instanceId channel : String} {pod : Pod V} (h : b.pod chance instanceId channel = .ok pod) :
    ∃ localCache, b.localCache chance = .ok localCache ∧
      pod = { settings := b.settings, localCache } := by
  unfold Builder.pod at h
  cases hv : b.validate with
  | error e =>
    rw [hv] at h
    cases h
  | ok _ =>
    cases hs : b.checkSynchronizer instanceId channel with
    | error e =>
      rw [hv, hs] at h
      cases h
    | ok _ =>
      cases hl : b.localCache chance with
      | error e =>
        rw [hv, hs, hl] at h
        cases h
      | ok localCache =>
        rw [hv, hs, hl] at h
        cases h
        exact ⟨localCache, rfl, rfl⟩

namespace Cluster

variable {V α : Type}

/-- A member has an open pod with nothing wrong with its requests; `k` is the core of the scenes in
which it acts. -/
def Has (c : Cluster V) (i : Nat) (k : Core V (Shared Unit)) : Prop :=
  ∃ pod : Pod V, c.members[i]? = some { pod := some pod } ∧ pod.core c.shared = k ∧
    k.closed = false

/-- A member has a pod, open or closed, with nothing wrong with its requests; `k` is the core of the
scenes in which it acts. -/
def Holds (c : Cluster V) (i : Nat) (k : Core V (Shared Unit)) : Prop :=
  ∃ pod : Pod V, c.members[i]? = some { pod := some pod } ∧ pod.core c.shared = k

/-- The pod with a number has acted, which left the core `k`; the other pods have not. -/
structure Acts (i : Nat) (k : Core V (Shared Unit)) (c c' : Cluster V) : Prop where
  holds : c'.Holds i k
  size : c'.members.size = c.members.size
  others : ∀ j, j ≠ i → c'.members[j]? = c.members[j]?

/-- The pod with a number has taken a turn, which left the core `k`; the other pods have not. -/
structure Turn (i : Nat) (k : Core V (Shared Unit)) (c c' : Cluster V) : Prop where
  has : c'.Has i k
  size : c'.members.size = c.members.size
  others : ∀ j, j ≠ i → c'.members[j]? = c.members[j]?

variable {c c' : Cluster V} {i j : Nat} {k k' : Core V (Shared Unit)}

theorem Has.isOpen (h : c.Has i k) : k.closed = false := by
  obtain ⟨pod, _, _, ho⟩ := h
  exact ho

theorem Has.holds (h : c.Has i k) : c.Holds i k := by
  obtain ⟨pod, hm, hk, _⟩ := h
  exact ⟨pod, hm, hk⟩

theorem Holds.has (h : c.Holds i k) (ho : k.closed = false) : c.Has i k := by
  obtain ⟨pod, hm, hk⟩ := h
  exact ⟨pod, hm, hk, ho⟩

theorem Holds.world (h : c.Holds i k) : k.world = c.shared := by
  obtain ⟨pod, _, rfl⟩ := h
  rfl

theorem Has.world (h : c.Has i k) : k.world = c.shared := h.holds.world

theorem Holds.lt (h : c.Holds i k) : i < c.members.size := by
  obtain ⟨pod, hm, _⟩ := h
  exact (Array.getElem?_eq_some_iff.1 hm).1

theorem Has.lt (h : c.Has i k) : i < c.members.size := h.holds.lt

theorem Holds.eq (h : c.Holds i k) (h' : c.Holds i k') : k = k' := by
  obtain ⟨pod, hm, rfl⟩ := h
  obtain ⟨pod', hm', rfl⟩ := h'
  rw [hm] at hm'
  cases hm'
  rfl

theorem Has.eq (h : c.Has i k) (h' : c.Has i k') : k = k' := h.holds.eq h'.holds

/-- A pod whose place is not touched finds itself in the world that the others have made. -/
theorem Holds.of_eq (h : c.Holds i k) (hm : c'.members[i]? = c.members[i]?) :
    c'.Holds i { k with world := c'.shared } := by
  obtain ⟨pod, hp, rfl⟩ := h
  exact ⟨pod, hm.trans hp, rfl⟩

theorem Has.of_eq (h : c.Has i k) (hm : c'.members[i]? = c.members[i]?) :
    c'.Has i { k with world := c'.shared } := (h.holds.of_eq hm).has h.isOpen

theorem Turn.refl (h : c.Has i k) : Turn i k c c := ⟨h, rfl, fun _ _ => rfl⟩

theorem Turn.trans {c'' : Cluster V} (h : Turn i k c c') (h' : Turn i k' c' c'') :
    Turn i k' c c'' :=
  ⟨h'.has, h'.size.trans h.size, fun j hj => (h'.others j hj).trans (h.others j hj)⟩

theorem Turn.shared (h : Turn i k c c') : c'.shared = k.world := h.has.world.symm

theorem Acts.turn (h : Acts i k c c') (ho : k.closed = false) : Turn i k c c' :=
  ⟨h.holds.has ho, h.size, h.others⟩

theorem Turn.acts (h : Turn i k c c') : Acts i k c c' := ⟨h.has.holds, h.size, h.others⟩

theorem Acts.refl (h : c.Holds i k) : Acts i k c c := ⟨h, rfl, fun _ _ => rfl⟩

theorem Acts.trans {c'' : Cluster V} (h : Acts i k c c') (h' : Acts i k' c' c'') :
    Acts i k' c c'' :=
  ⟨h'.holds, h'.size.trans h.size, fun j hj => (h'.others j hj).trans (h.others j hj)⟩

theorem Acts.shared (h : Acts i k c c') : c'.shared = k.world := h.holds.world.symm

theorem acts_modify {pod : Pod V} {m : Member V} (h : c.members[i]? = some m)
    {f : Member V → Member V} (hf : f m = { pod := some pod }) (w : Shared Unit) :
    Acts i (pod.core w) c { shared := w, members := c.members.modify i f } := by
  refine ⟨⟨pod, ?_, rfl⟩, Array.size_modify, fun j hj => ?_⟩
  · rw [Array.getElem?_modify, if_pos rfl, h, Option.map_some, hf]
  · rw [Array.getElem?_modify, if_neg hj.symm]

/-! ## What the services answer -/

/-- Services in memory with nothing wrong answer at once, so that no time limit matters. -/
theorem waitWithin_services (limit : Duration) (i : Nat) (r : Request) (w : Shared Unit) :
    (services i Faults.none).waitWithin limit r w =
      ((Shared.services (i + 1) i r w).result, (Shared.services (i + 1) i r w).world) := by
  have hw : (services i Faults.none r w).wait = 0 := by cases r <;> rfl
  unfold Services.waitWithin
  dsimp only
  rw [hw, if_pos (Nat.zero_le _)]
  rfl

theorem answer_services (i : Nat) (r : Request) (k : Core V (Shared Unit)) :
    k.answer (services i Faults.none) r = (Shared.services (i + 1) i r k.world).result := by
  rw [Core.answer, waitWithin_services]

theorem asked_services (i : Nat) (r : Request) (k : Core V (Shared Unit)) :
    k.asked (services i Faults.none) r =
      { k with world := (Shared.services (i + 1) i r k.world).world } := by
  rw [Core.asked, waitWithin_services]

/-! ## Operations and deliveries -/

/-- A pod that acts gives what its step gives. -/
theorem acts_act (h : c.Holds i k) (step : Services (Shared Unit) → Act V (Shared Unit) α) {a : α}
    (hg : Pod.Gives (step (services i Faults.none)) k a k') :
    (c.act i step).1.map Prod.fst = some a ∧ Acts i k' c (c.act i step).2 := by
  obtain ⟨pod, hm, rfl⟩ := h
  obtain ⟨ha, hk⟩ := hg { pod, world := c.shared } rfl
  unfold act
  rw [hm]
  dsimp only
  set out := step (services i Faults.none) { pod, world := c.shared }
  refine ⟨congrArg some ha, ?_⟩
  subst hk
  exact acts_modify hm rfl out.2.world

theorem turn_act (h : c.Has i k) (step : Services (Shared Unit) → Act V (Shared Unit) α) {a : α}
    (hg : Pod.Gives (step (services i Faults.none)) k a k')
    (ho : k'.closed = false) :
    (c.act i step).1.map Prod.fst = some a ∧ Turn i k' c (c.act i step).2 := by
  obtain ⟨ha, hacts⟩ := acts_act h.holds step hg
  exact ⟨ha, hacts.turn ho⟩

theorem acts_maintain (h : c.Holds i k) :
    Acts i { k with localCache := k.localCache.maintain } c (c.maintain i) := by
  obtain ⟨pod, hm, rfl⟩ := h
  show Acts i (pod.maintain.core c.shared) c (c.maintain i)
  refine acts_modify hm ?_ c.shared
  rfl

theorem turn_maintain (h : c.Has i k) :
    Turn i { k with localCache := k.localCache.maintain } c (c.maintain i) :=
  (acts_maintain h.holds).turn h.isOpen

/-- A pod that is handed an event changes its local cache at most. -/
theorem acts_handleEvent (h : c.Holds i k) (e : Event) :
    ∃ k', Core.Keeps k k' ∧ Acts i k' c (c.act i fun _ => Pod.handleEvent e).2 := by
  cases hk : k.closed with
  | false =>
    have hg := Pod.gives_handleEvent e hk
    exact ⟨_, k.keeps_applied e, (acts_act h (fun _ => Pod.handleEvent e) hg).2⟩
  | true =>
    have hg := Pod.gives_handleEvent_of_closed e hk
    exact ⟨k, .refl k, (acts_act h (fun _ => Pod.handleEvent e) hg).2⟩

theorem acts_react (h : c.Holds i k) (o : Occurrence Unit) :
    ∃ k', Core.Keeps k k' ∧ Acts i k' c (c.react i o).2 := by
  cases o with
  | event callback e => exact acts_handleEvent h e
  | failure callback e =>
    exact ⟨k, .refl k, (acts_act h (fun _ => Pod.report e) (Pod.gives_report e k)).2⟩
  | undecodable e => exact ⟨k, .refl k, .refl h⟩
  | lagged skipped => exact ⟨k, .refl k, .refl h⟩

theorem acts_reactAll (h : c.Holds i k) (os : List (Occurrence Unit)) :
    ∃ k', Core.Keeps k k' ∧ Acts i k' c (c.reactAll i os).2 := by
  induction os generalizing c k with
  | nil => exact ⟨k, .refl k, .refl h⟩
  | cons o os ih =>
    obtain ⟨k₁, hk₁, first⟩ := acts_react h o
    obtain ⟨k₂, hk₂, rest⟩ := ih first.holds
    exact ⟨k₂, hk₁.trans hk₂, first.trans rest⟩

/-- Open or closed, a pod that is delivered something moves on in its topic and changes its local
cache, and that is all. -/
theorem acts_deliver (h : c.Holds i k) (count : Nat) :
    ∃ k', Core.Keeps { k with world.bus := (k.world.bus.take i count).2 } k' ∧
      Acts i k' c (c.deliver i count).2 := by
  rw [h.world]
  set bus := (c.shared.bus.take i count).2
  have moved : Acts i { k with world := { c.shared with bus } } c
      { c with shared := { c.shared with bus } } :=
    ⟨h.of_eq rfl, rfl, fun _ _ => rfl⟩
  obtain ⟨k', hk', rest⟩ := acts_reactAll moved.holds (c.shared.bus.take i count).1
  exact ⟨k', hk', moved.trans rest⟩

theorem turn_react (h : c.Has i k) (o : Occurrence Unit) :
    Turn i (k.appliedAll o.event?.toList) c (c.react i o).2 := by
  cases o with
  | event callback e =>
    have hg := Pod.gives_handleEvent e h.isOpen
    exact (turn_act h (fun _ => Pod.handleEvent e) hg
      ((k.keeps_applied e).closed.trans h.isOpen)).2
  | failure callback e =>
    exact (turn_act h (fun _ => Pod.report e) (Pod.gives_report e k) h.isOpen).2
  | undecodable e => exact .refl h
  | lagged skipped => exact .refl h

theorem turn_reactAll (h : c.Has i k) (os : List (Occurrence Unit)) :
    Turn i (k.appliedAll (os.filterMap Occurrence.event?)) c (c.reactAll i os).2 := by
  induction os generalizing c k with
  | nil => exact .refl h
  | cons o os ih =>
    have first := turn_react h o
    have rest := first.trans (ih first.has)
    rw [Core.appliedAll, Core.appliedAll, ← List.foldl_append] at rest
    rw [List.filterMap_eq_flatMap_toList, List.flatMap_cons, ← List.filterMap_eq_flatMap_toList]
    exact rest

/-- A pod takes some of what waits for it: its synchronizer goes on in the topic, and the events of
its peers are carried out. -/
theorem turn_deliver (h : c.Has i k) (count : Nat) :
    Turn i (Core.appliedAll { k with world.bus := (k.world.bus.take i count).2 }
      ((k.world.bus.take i count).1.filterMap Occurrence.event?)) c (c.deliver i count).2 := by
  rw [h.world]
  set bus := (c.shared.bus.take i count).2
  have moved : Turn i { k with world := { c.shared with bus } } c
      { c with shared := { c.shared with bus } } :=
    ⟨h.of_eq rfl, rfl, fun _ _ => rfl⟩
  exact moved.trans (turn_reactAll moved.has _)

/-! ## New pods -/

/-- A pod that could be built has a local cache as its builder makes it, and listens from now on. -/
theorem has_build {chance : Chance} {b : Builder V} {c' : Cluster V} {built : Built}
    (hc : c.build chance b b.instanceId b.channel Faults.none = (built, c'))
    (hb : built.result = .ok ()) (hs : c.shared.bus.synchronizers.size = c.members.size) :
    c'.members.size = c.members.size + 1 ∧
      (∀ j, j ≠ c.members.size → c'.members[j]? = c.members[j]?) ∧
      ∃ localCache, b.localCache chance = .ok localCache ∧
        c'.Has c.members.size
          { settings := b.settings, closed := false, localCache, transformed := [],
            world := c.shared.welcome b.channel b.instanceId } := by
  unfold build at hc
  cases hp : b.pod chance b.instanceId b.channel with
  | error e =>
    rw [hp] at hc
    cases hc
    cases hb
  | ok pod =>
    rw [hp] at hc
    obtain ⟨localCache, hl, rfl⟩ := b.pod_eq_of_ok hp
    dsimp only at hc
    set pod : Pod V := { settings := b.settings, localCache }
    set joined := c.join { pod := some pod, faults := Faults.none } b.instanceId b.channel
    have hbus : joined.shared.bus = c.shared.bus.attach b.channel b.instanceId := by
      rw [Bus.attach, hs]
      rfl
    have hsub : joined.shared.bus.subscribe c.members.size =
        (.ok (), (c.shared.welcome b.channel b.instanceId).bus) := by
      rw [hbus, Shared.welcome, ← hs, Bus.subscribe_attach]
    have hj : joined.Has c.members.size (pod.core joined.shared) :=
      ⟨pod, Array.getElem?_push_size, rfl, rfl⟩
    have hanswer : (pod.core joined.shared).answer (services c.members.size Faults.none)
        .subscribe = .ok [] :=
      (answer_services _ _ _).trans (congrArg (Shared.emptyValue ∘ Prod.fst) hsub)
    obtain ⟨ha, ht⟩ := turn_act hj Pod.start (Pod.gives_start hanswer) rfl
    generalize joined.act c.members.size Pod.start = out at hc ha ht
    obtain ⟨_ | ⟨result, notes⟩, c''⟩ := out
    · cases ha
    · cases ha
      cases hc
      refine ⟨ht.size.trans (Array.size_push _), fun j hj => ?_, localCache, hl, ?_⟩
      · rw [ht.others j hj]
        exact (Array.getElem?_push).trans (if_neg hj)
      · have hh := ht.has
        rw [asked_services] at hh
        have hworld : (Shared.services (c.members.size + 1) c.members.size .subscribe
            joined.shared).world = c.shared.welcome b.channel b.instanceId := by
          show Shared.mk c.shared.store.clone.2 (joined.shared.bus.subscribe c.members.size).2 = _
          rw [hsub]
          rfl
        rw [← hworld]
        exact hh

end Cluster

end PodCache
