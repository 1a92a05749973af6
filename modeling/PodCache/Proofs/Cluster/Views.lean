import PodCache.Proofs.Cluster.Steps
import PodCache.Proofs.Pod.Writes

/-!
# What a pod sees of the services in memory

A pod sees the store, through its handle, and what waits for its synchronizer.  A turn of another
pod changes this in two ways only: not at all (`Shared.SameFor`), or by a write (`Write.onShared`).
-/

namespace PodCache

open Std (TreeMap)

variable {V : Type}

namespace Shared

/-- The values that the store has, as far as they can be read. -/
def stored (codec : Codec V) (s : Shared Unit) : Contents V := fun key =>
  s.store.contents[key]?.bind fun bytes => (codec.decode bytes).toOption

/-- The events of peers that wait for a synchronizer of an identity. -/
def backlog (s : Shared Unit) (i : Nat) (name : String) : List Event :=
  (s.bus.waiting i).filterMap (Event.heardBy name)

/-- A pod has an open handle, and its synchronizer listens. -/
structure Serves (s : Shared Unit) (i : Nat) (channel name : String) : Prop where
  handle : s.store.isOpen (i + 1) = true
  listens : ∃ position, s.bus.Listens i channel name position

/-- Nothing has changed for a pod. -/
structure SameFor (i : Nat) (s s' : Shared Unit) : Prop where
  contents : s'.store.contents = s.store.contents
  handle : s'.store.isOpen (i + 1) = s.store.isOpen (i + 1)
  bus : ∃ j, j ≠ i ∧ Bus.Touches j s.bus s'.bus

variable {s s' : Shared Unit} {i : Nat} {channel name : String}

theorem SameFor.stored (h : SameFor i s s') (codec : Codec V) :
    s'.stored codec = s.stored codec := by
  funext key
  rw [Shared.stored, Shared.stored, h.contents]

theorem SameFor.serves (h : SameFor i s s') (hs : s.Serves i channel name) :
    s'.Serves i channel name := by
  obtain ⟨j, hj, hb⟩ := h.bus
  obtain ⟨position, hl⟩ := hs.listens
  exact ⟨h.handle.trans hs.handle, position, hl.of_touches hb hj.symm⟩

theorem SameFor.backlog (h : SameFor i s s') (name : String) :
    s'.backlog i name = s.backlog i name := by
  obtain ⟨j, hj, hb⟩ := h.bus
  rw [Shared.backlog, Shared.backlog, hb.waiting hj.symm]

/-! ## Another pod -/

theorem sameFor_welcome (s : Shared Unit) (channel name : String)
    (hs : i < s.bus.synchronizers.size)
    (hh : s.store.closed.size = s.bus.synchronizers.size + 1) :
    SameFor i s (s.welcome channel name) := by
  refine ⟨rfl, ?_, s.bus.synchronizers.size, hs.ne', Bus.touches_subscribe_attach _ _ _⟩
  show ((s.store.closed.push false)[i + 1]? == some false) = (s.store.closed[i + 1]? == some false)
  rw [Array.getElem?_push, if_neg (by omega)]

theorem size_closed_welcome (s : Shared Unit) (channel name : String) :
    (s.welcome channel name).store.closed.size = s.store.closed.size + 1 :=
  Array.size_push false

theorem size_synchronizers_welcome (s : Shared Unit) (channel name : String) :
    (s.welcome channel name).bus.synchronizers.size = s.bus.synchronizers.size + 1 :=
  Bus.size_subscribe_attach s.bus channel name

theorem serves_welcome (s : Shared Unit) (channel name : String)
    (hh : s.store.closed.size = s.bus.synchronizers.size + 1) :
    (s.welcome channel name).Serves s.bus.synchronizers.size channel name := by
  refine ⟨?_, _, Bus.listens_subscribe_attach s.bus channel name⟩
  show ((s.store.closed.push false)[s.bus.synchronizers.size + 1]? == some false) = true
  rw [← hh, Array.getElem?_push_size]
  rfl

/-- A new pod has missed nothing. -/
theorem backlog_welcome (s : Shared Unit) (channel name : String) :
    (s.welcome channel name).backlog s.bus.synchronizers.size name = [] := by
  have hl := Bus.listens_subscribe_attach s.bus channel name
  have ht := (Bus.touches_subscribe_attach s.bus channel name).topic channel
  rw [backlog, welcome, hl.waiting, ht, Topic.since, Nat.sub_self]
  rfl

end Shared

/-! ## Writes -/

namespace Write

/-- What a write does to the store. -/
def onStore (codec : Codec V) (contents : TreeMap String Bytes) : Write V → TreeMap String Bytes
  | .set _ key value => contents.insert key (codec.bytes value)
  | .delete key => contents.erase key
  | .clear => {}

/-- What a write of a pod of some identity on some channel does to the services. -/
def onShared (codec : Codec V) (channel sender : String) (s : Shared Unit) (w : Write V) :
    Shared Unit where
  store := { s.store with contents := w.onStore codec s.store.contents }
  bus := (s.bus.publishRaw channel (w.event codec sender).encode).2

variable {codec : Codec V} {s : Shared Unit} {i : Nat} {channel name sender : String}

theorem stored_onShared (hf : codec.Faithful) (w : Write V) :
    (w.onShared codec channel sender s).stored codec = w.onContents (s.stored codec) := by
  funext key
  cases w with
  | set announcement k value =>
    show ((s.store.contents.insert k (codec.bytes value))[key]?.bind fun bytes =>
      (codec.decode bytes).toOption) = (s.stored codec).put k value key
    rw [TreeMap.getElem?_insert, Contents.put_apply]
    by_cases hk : k = key
    · rw [if_pos (Std.compare_eq_iff_eq.2 hk), if_pos hk, Option.bind_some, hf.decode]
      rfl
    · rw [if_neg (mt Std.compare_eq_iff_eq.1 hk), if_neg hk]
      rfl
  | delete k =>
    show ((s.store.contents.erase k)[key]?.bind fun bytes => (codec.decode bytes).toOption) =
      (s.stored codec).erase k key
    rw [TreeMap.getElem?_erase, Contents.erase_apply]
    by_cases hk : k = key
    · rw [if_pos (Std.compare_eq_iff_eq.2 hk), if_pos hk]
      rfl
    · rw [if_neg (mt Std.compare_eq_iff_eq.1 hk), if_neg hk]
      rfl
  | clear => rfl

theorem serves_onShared (h : s.Serves i channel name) (w : Write V) (channel' : String) :
    (w.onShared codec channel' sender s).Serves i channel name := by
  obtain ⟨position, hl⟩ := h.listens
  exact ⟨h.handle, position, hl.publishRaw channel' _⟩

theorem heardBy_encode_event (w : Write V) :
    Event.heardBy name (w.event codec sender).encode =
      if sender = name then none else some (w.event codec sender).normal := by
  have hs : (w.event codec sender).normal.sender = sender := by
    cases w with
    | set announcement key value => cases announcement <;> rfl
    | delete key => rfl
    | clear => rfl
  rw [Event.heardBy, Event.decode_encode]
  dsimp only
  rw [hs]

/-- Peers that keep up will hear of the write after all that they have not heard yet. -/
theorem backlog_onShared {w : Write V} (h : s.Serves i channel name) (ha : w.Audible codec)
    (hn : sender ≠ name) (hc : (w.onShared codec channel sender s).bus.KeepsUp) :
    (w.onShared codec channel sender s).backlog i name =
      s.backlog i name ++ [w.event codec sender] := by
  obtain ⟨position, hl⟩ := h.listens
  have heard : Event.heardBy name (w.event codec sender).encode = _ := heardBy_encode_event w
  rw [if_neg hn, normal_event ha] at heard
  rw [Shared.backlog, onShared, hl.waiting_publishRaw _ hc, List.filterMap_append,
    List.filterMap_cons_some heard]
  rfl

/-- The writer does not hear of its own write, whether it keeps up or not. -/
theorem mem_backlog_onShared {w : Write V} {e : Event} (h : s.Serves i channel name)
    (he : e ∈ (w.onShared codec channel name s).backlog i name) : e ∈ s.backlog i name := by
  obtain ⟨position, hl⟩ := h.listens
  obtain ⟨payload, hp, hpe⟩ := List.mem_filterMap.1 he
  rcases hl.mem_waiting_publishRaw _ hp with hp | rfl
  · exact List.mem_filterMap.2 ⟨payload, hp, hpe⟩
  · rw [heardBy_encode_event w, if_pos rfl] at hpe
    cases hpe

/-- A writer that keeps up has the same to hear as before. -/
theorem backlog_onShared_self {w : Write V} (h : s.Serves i channel name)
    (hc : (w.onShared codec channel name s).bus.KeepsUp) :
    (w.onShared codec channel name s).backlog i name = s.backlog i name := by
  obtain ⟨position, hl⟩ := h.listens
  have heard : Event.heardBy name (w.event codec name).encode = _ := heardBy_encode_event w
  rw [if_pos rfl] at heard
  rw [Shared.backlog, onShared, hl.waiting_publishRaw _ hc, List.filterMap_append,
    List.filterMap_cons_none heard]
  exact List.append_nil _

end Write

/-! ## What the services do for a pod -/

theorem Write.services_request (w : Write V) (codec : Codec V) {s : Shared Unit} {i : Nat}
    (h : s.store.isOpen (i + 1) = true) :
    Shared.services (i + 1) i (w.request codec) s =
      ⟨0, .ok [], { s with store.contents := w.onStore codec s.store.contents }⟩ := by
  cases w <;> simp [request, Shared.services, MemoryStore.set, MemoryStore.delete,
    MemoryStore.clear, MemoryStore.update, h, Shared.ofStore, Shared.emptyValue, onStore,
    Except.map]

theorem Shared.services_publish {store : MemoryStore} {bus : Bus Unit} {i : Nat}
    {sync : Synchronizer Unit} (hs : bus.synchronizers[i]? = some sync) (hc : sync.closed = false)
    (e : Event) :
    Shared.services (i + 1) i (.publish e) { store, bus } =
      ⟨0, .ok [], { store, bus := (bus.publishRaw sync.channel e.encode).2 }⟩ := by
  simp [Shared.services, Bus.publish, hs, hc, Shared.ofBus, Shared.emptyValue, Except.map]

/-! ## Turns of pods that are served -/

namespace Cluster

variable {c : Cluster V} {i : Nat} {k : Core V (Shared Unit)} {channel : String}

theorem fetched_services (h : k.world.store.isOpen (i + 1) = true) (key : String) :
    k.fetched (services i Faults.none) key = k.world.stored k.settings.codec key := by
  have hr : (Shared.services (i + 1) i (.storeGet key) k.world).result =
      k.world.store.get (i + 1) key := rfl
  rw [Core.fetched, answer_services, Shared.stored, hr, MemoryStore.get, if_pos h]
  rcases k.world.store.contents[key]? with _ | bytes <;> rfl

/-- A lookup that the local cache can answer. -/
theorem turn_get_of_hit {key : String} {value : V} (h : c.Has i k)
    (hit : k.localCache.contents key = some value) :
    (c.act i fun services => Pod.get services key).1.map Prod.fst = some (some value) ∧
      Turn i (k.look key) c (c.act i fun services => Pod.get services key).2 :=
  turn_act h _ (Pod.gives_get_of_hit h.isOpen hit) h.isOpen

/-- A lookup for which the store is asked. -/
theorem turn_get_of_miss {key : String} (h : c.Has i k)
    (miss : k.localCache.contents key = none) :
    let found := (k.look key).fetched (services i Faults.none) key
    (c.act i fun services => Pod.get services key).1.map Prod.fst = some found ∧
      Turn i ((k.look key).keepAny key found) c
        (c.act i fun services => Pod.get services key).2 := by
  have hg : Pod.Gives (Pod.get (services i Faults.none) key) k _ _ :=
    Pod.gives_get_of_miss h.isOpen miss
  rw [asked_services] at hg
  exact turn_act h _ hg (((k.look key).keeps_keepAny key _).closed.trans h.isOpen)

/-- A write of a pod that writes through. -/
theorem turn_write (h : c.Has i k) (hs : k.world.Serves i channel k.settings.instanceId)
    (hf : k.settings.codec.Faithful) (hw : k.settings.writeThrough = true) (w : Write V) :
    (c.act i fun services => w.perform services).1.map Prod.fst = some (.ok ()) ∧
      Turn i
        { w.onCore k with
          world := w.onShared k.settings.codec channel k.settings.instanceId k.world }
        c (c.act i fun services => w.perform services).2 := by
  obtain ⟨position, hl⟩ := hs.listens
  have hk := w.keeps_onCore k
  have hr := w.services_request k.settings.codec hs.handle
  rw [← hk.world] at hr
  have hanswer : (w.onCore k).answer (services i Faults.none) (w.request k.settings.codec) =
      .ok [] := by
    rw [answer_services, hr]
  have hg := w.gives_perform h.isOpen (w.reachesStore_of_eq_true hw) (w.verdict_of_faithful hf)
    hanswer
  rw [asked_services, asked_services, hr] at hg
  dsimp only at hg
  rw [hk.world, Shared.services_publish hl.synchronizer rfl] at hg
  exact turn_act h _ hg (hk.closed.trans h.isOpen)

end Cluster

end PodCache
