import PodCache.Proofs.Bus.Law
import PodCache.Proofs.Cluster.Incidents

/-!
# Pods and their synchronizers

Every pod of a cluster has a synchronizer that nobody else drops, and that is idle once it is
closed.  It is so in a cluster without pods, and no incident changes it (`Served.afterAll`).
-/

namespace PodCache

variable {V α : Type}

/-- The owner of a synchronizer is there, and has stopped it if it is closed. -/
structure Synchronizer.IsOwned {κ : Type} (s : Synchronizer κ) : Prop where
  notEnding : s.listening ≠ .ending
  idle_of_closed : s.closed = true → s.listening = .idle

namespace Bus

variable {κ : Type}

/-- One synchronizer may have changed.  It is owned if it was before, and keeps its callbacks if
they register no others. -/
structure Tends (id : Nat) (b b' : Bus κ) : Prop where
  size : b'.synchronizers.size = b.synchronizers.size
  others : ∀ j, j ≠ id → b'.synchronizers[j]? = b.synchronizers[j]?
  owned : ∀ s, b.synchronizers[id]? = some s → s.IsOwned →
    ∃ s', b'.synchronizers[id]? = some s' ∧ s'.IsOwned
  listeners : ∀ s, b.synchronizers[id]? = some s → s.listeners.Plain →
    ∃ s', b'.synchronizers[id]? = some s' ∧ s'.listeners = s.listeners

variable {id : Nat} {b b' b'' : Bus κ}

/-- What only changes the topics changes no synchronizer. -/
theorem tends_of_eq (id : Nat) (h : b'.synchronizers = b.synchronizers) : Tends id b b' :=
  ⟨by rw [h], fun _ _ => by rw [h], fun s hs ho => ⟨s, h ▸ hs, ho⟩, fun s hs _ => ⟨s, h ▸ hs, rfl⟩⟩

theorem Tends.refl (id : Nat) (b : Bus κ) : Tends id b b := tends_of_eq id rfl

theorem Tends.trans (h : Tends id b b') (h' : Tends id b' b'') : Tends id b b'' := by
  refine ⟨h'.size.trans h.size, fun j hj => (h'.others j hj).trans (h.others j hj),
    fun s hs ho => ?_, fun s hs hp => ?_⟩
  · obtain ⟨s', hs', ho'⟩ := h.owned s hs ho
    exact h'.owned s' hs' ho'
  · obtain ⟨s', hs', hl⟩ := h.listeners s hs hp
    obtain ⟨s'', hs'', hl'⟩ := h'.listeners s' hs' (hl ▸ hp)
    exact ⟨s'', hs'', hl'.trans hl⟩

theorem tends_modify (b : Bus κ) (id : Nat) {f : Synchronizer κ → Synchronizer κ}
    (hf : ∀ s, b.synchronizers[id]? = some s → s.IsOwned → (f s).IsOwned)
    (hl : ∀ s, b.synchronizers[id]? = some s → s.listeners.Plain →
      (f s).listeners = s.listeners) : Tends id b (b.modify id f) :=
  ⟨Array.size_modify, (touches_modify b id f).others,
    fun s hs ho => ⟨f s, getElem?_modify_self hs f, hf s hs ho⟩,
    fun s hs hp => ⟨f s, getElem?_modify_self hs f, hl s hs hp⟩⟩

theorem tends_subscribe (b : Bus κ) (id : Nat) : Tends id b (b.subscribe id).2 := by
  unfold subscribe
  cases hs : b.synchronizers[id]? with
  | none => exact .refl id b
  | some s =>
    dsimp only
    split_ifs with hc
    · exact .refl id b
    · refine tends_modify b id (fun s' hs' _ => ⟨nofun, fun h => absurd h ?_⟩) fun _ _ _ => rfl
      obtain rfl : s = s' := Option.some.inj (hs.symm.trans hs')
      exact hc
    · exact .refl id b

theorem tends_publish (b : Bus κ) (id : Nat) (e : Event) : Tends id b (b.publish id e).2 := by
  unfold publish
  cases b.synchronizers[id]? with
  | none => exact .refl id b
  | some s =>
    dsimp only
    split_ifs
    · exact .refl id b
    · exact tends_of_eq id rfl

theorem tends_close (b : Bus κ) (id : Nat) : Tends id b (b.close id) := by
  refine tends_modify b id (fun s _ ho => ?_) fun s _ _ => ?_
  · split_ifs
    · exact ho
    · exact ⟨nofun, fun _ => rfl⟩
  · split_ifs <;> rfl

/-- Whoever closes its synchronizer has stopped it. -/
theorem idle_close {s : Synchronizer κ} (hs : b.synchronizers[id]? = some s) (ho : s.IsOwned) :
    ∃ s', (b.close id).synchronizers[id]? = some s' ∧ s'.listening = .idle := by
  refine ⟨_, (apart_modify hs _).right, ?_⟩
  split_ifs with hc
  · exact ho.idle_of_closed hc
  · rfl

theorem tends_take (b : Bus κ) (id count : Nat) : Tends id b (b.take id count).2 := by
  unfold take
  cases hs : b.synchronizers[id]? with
  | none => exact .refl id b
  | some s =>
    dsimp only
    cases hl : s.listening with
    | idle => exact .refl id b
    | ending => exact tends_modify b id (fun _ _ _ => ⟨nofun, fun _ => rfl⟩) fun _ _ _ => rfl
    | active position =>
      refine tends_modify b id (fun s' hs' ho => ⟨nofun, fun hc => ?_⟩) fun s' hs' hp => ?_
      · obtain rfl : s = s' := Option.some.inj (hs.symm.trans hs')
        have hidle := ho.idle_of_closed hc
        rw [hl] at hidle
        cases hidle
      · obtain rfl : s = s' := Option.some.inj (hs.symm.trans hs')
        exact congrArg Prod.snd (Listeners.dispatchAll_of_plain hp _)

end Bus

/-! ## What pods do to their synchronizers -/

namespace Shared

/-- A world compared with itself, whose bus comes from another by what the owner of one
synchronizer does. -/
def Kept (i : Nat) (b : Bus Unit) (w w' : Shared Unit) : Prop := w = w' ∧ Bus.Tends i b w.bus

theorem blind_services_kept (i : Nat) (b : Bus Unit) (handle : Nat) :
    Services.Blind (Kept i b) (services handle i) := by
  rintro r w w' ⟨rfl, hb⟩
  refine ⟨rfl, rfl, rfl, ?_⟩
  cases r with
  | storeGet | storeSet | storeDelete | storeClear | storeClose => exact hb
  | subscribe => exact hb.trans (Bus.tends_subscribe w.bus i)
  | publish e => exact hb.trans (Bus.tends_publish w.bus i e)
  | synchronizerClose => exact hb.trans (Bus.tends_close w.bus i)

end Shared

namespace Cluster

/-- Every pod has a synchronizer, which it owns. -/
structure Served (c : Cluster V) : Prop where
  size : c.shared.bus.synchronizers.size = c.members.size
  owned : ∀ i pod, c.pod? i = some pod →
    ∃ s, c.shared.bus.synchronizers[i]? = some s ∧ s.IsOwned

variable {c c' : Cluster V} {i j : Nat}

/-- A pod has done something to its place and its synchronizer. -/
structure Sways (i : Nat) (c c' : Cluster V) : Prop where
  size : c'.members.size = c.members.size
  others : ∀ j, j ≠ i → c'.members[j]? = c.members[j]?
  /-- No pod appears from nowhere. -/
  pod : (c'.pod? i).isSome → (c.pod? i).isSome
  bus : Bus.Tends i c.shared.bus c'.shared.bus

theorem Served.sways (h : c.Served) (hc : Sways i c c') : c'.Served := by
  refine ⟨by rw [hc.bus.size, h.size, hc.size], fun j pod hj => ?_⟩
  by_cases hji : j = i
  · obtain rfl := hji
    obtain ⟨pod', hpod'⟩ := Option.isSome_iff_exists.1 (hc.pod (Option.isSome_of_eq_some hj))
    obtain ⟨s, hs, ho⟩ := h.owned j pod' hpod'
    exact hc.bus.owned s hs ho
  · rw [pod?, hc.others j hji] at hj
    rw [hc.bus.others j hji]
    exact h.owned j pod hj

theorem Sways.refl (i : Nat) (c : Cluster V) : Sways i c c :=
  ⟨rfl, fun _ _ => rfl, fun h => h, .refl i _⟩

theorem Sways.trans {c'' : Cluster V} (h : Sways i c c') (h' : Sways i c' c'') : Sways i c c'' :=
  ⟨h'.size.trans h.size, fun j hj => (h'.others j hj).trans (h.others j hj),
    fun hp => h.pod (h'.pod hp), h.bus.trans h'.bus⟩

theorem pod?_modify (c : Cluster V) (i : Nat) (f : Member V → Member V) :
    (c.modify i f).pod? i = ((c.members[i]?).map f).bind Member.pod := by
  rw [pod?, modify, Array.getElem?_modify, if_pos rfl]

theorem sways_modify (c : Cluster V) (i : Nat) {f : Member V → Member V}
    (hf : ∀ m, (f m).pod.isSome → m.pod.isSome) : Sways i c (c.modify i f) := by
  refine ⟨Array.size_modify, fun j hj => ?_, fun h => ?_, .refl i _⟩
  · rw [modify, Array.getElem?_modify, if_neg hj.symm]
  · rw [pod?_modify] at h
    rw [pod?]
    cases hm : c.members[i]? with
    | none =>
      rw [hm] at h
      exact h
    | some m =>
      rw [hm] at h
      exact hf m h

/-- A step of a pod. -/
theorem sways_act (c : Cluster V) (step : Services (Shared Unit) → Act V (Shared Unit) α)
    (hstep : ∀ faults, Pod.Blind (Shared.Kept i c.shared.bus) (step (services i faults))) :
    Sways i c (c.act i step).2 := by
  unfold act
  rcases hm : c.members[i]? with _ | ⟨_ | pod, faults⟩
  · exact .refl i c
  · exact .refl i c
  · have hend := hstep faults pod [] c.shared c.shared ⟨rfl, .refl i _⟩
    refine ⟨Array.size_modify, fun j hj => ?_, fun _ => ?_, hend.world.2⟩
    · exact (Array.getElem?_modify).trans (if_neg hj.symm)
    · rw [pod?, hm]
      rfl

theorem sways_react (c : Cluster V) (i : Nat) (o : Occurrence Unit) :
    Sways i c (c.react i o).2 := by
  cases o with
  | event callback e =>
    exact sways_act c (fun _ => Pod.handleEvent e) fun _ => Pod.blind_handleEvent e
  | failure callback e => exact sways_act c (fun _ => Pod.report e) fun _ => Pod.blind_report e
  | undecodable e => exact .refl i c
  | lagged skipped => exact .refl i c

theorem sways_reactAll (c : Cluster V) (i : Nat) (os : List (Occurrence Unit)) :
    Sways i c (c.reactAll i os).2 := by
  induction os generalizing c with
  | nil => exact .refl i c
  | cons o os ih => exact (sways_react c i o).trans (ih _)

theorem sways_deliver (c : Cluster V) (i count : Nat) : Sways i c (c.deliver i count).2 := by
  have moved : Sways i c
      { c with shared := { c.shared with bus := (c.shared.bus.take i count).2 } } :=
    ⟨rfl, fun _ _ => rfl, fun h => h, Bus.tends_take _ i count⟩
  exact moved.trans (sways_reactAll _ i _)

/-- Unless a pod comes or goes, an incident changes one pod and its synchronizer at most. -/
theorem exists_sways (c : Cluster V) (x : Incident V) :
    (∃ i, Sways i c (c.undergo x).2) ∨ (∃ i keepSynchronizer, x = .drop i keepSynchronizer) ∨
      ∃ chance b instanceId channel faults, x = .build chance b instanceId channel faults := by
  cases x with
  | call i op =>
    exact .inl ⟨i, sways_act c (fun services => op.perform services) fun faults =>
      Pod.blind_perform ((Shared.blind_services_kept _ _ _).disturbed faults) op⟩
  | deliver i count => exact .inl ⟨i, sways_deliver c i count⟩
  | maintain i => exact .inl ⟨i, sways_modify c i fun m hm => (Option.isSome_map ..).symm.trans hm⟩
  | setFault i point fault => exact .inl ⟨i, sways_modify c i fun _ hm => hm⟩
  | publishRaw | storeSet | storeGet =>
    exact .inl ⟨0, rfl, fun _ _ => rfl, fun h => h, Bus.tends_of_eq 0 rfl⟩
  | drop i keepSynchronizer => exact .inr (.inl ⟨i, keepSynchronizer, rfl⟩)
  | build chance b instanceId channel faults =>
    exact .inr (.inr ⟨chance, b, instanceId, channel, faults, rfl⟩)

/-! ## Pods that come and go -/

theorem Served.drop (h : c.Served) (i : Nat) (keepSynchronizer : Bool) :
    (c.drop i keepSynchronizer).Served := by
  have hmod : (c.modify i fun m => { m with pod := none }).Served :=
    h.sways (sways_modify c i fun m hm => absurd hm Bool.false_ne_true)
  unfold Cluster.drop
  dsimp only
  split_ifs
  · exact hmod
  · refine ⟨Array.size_modify.trans hmod.size, fun j pod hj => ?_⟩
    have hji : j ≠ i := by
      rintro rfl
      have hnone : (c.modify j fun m => { m with pod := none }).pod? j = none := by
        rw [pod?_modify]
        cases c.members[j]? <;> rfl
      exact absurd (hnone.symm.trans hj) nofun
    obtain ⟨s, hs, ho⟩ := hmod.owned j pod hj
    exact ⟨s, ((Bus.touches_modify _ i _).others j hji).trans hs, ho⟩

/-- A new synchronizer is idle and open. -/
theorem Served.join (h : c.Served) (member : Member V) (instanceId channel : String) :
    (c.join member instanceId channel).Served := by
  have hbus : (c.join member instanceId channel).shared.bus =
      c.shared.bus.attach channel instanceId := by
    rw [Bus.attach, h.size]
    rfl
  refine ⟨?_, fun j pod hj => ?_⟩
  · rw [hbus, Bus.synchronizers_attach, Array.size_push, h.size]
    exact (Array.size_push _).symm
  · rw [hbus, Bus.synchronizers_attach, Array.getElem?_push, h.size]
    by_cases hn : j = c.members.size
    · rw [if_pos hn]
      exact ⟨_, rfl, Listening.noConfusion, fun _ => rfl⟩
    · rw [if_neg hn]
      rw [pod?, Cluster.join, Array.getElem?_push, if_neg hn] at hj
      exact h.owned j pod hj

theorem Served.build (h : c.Served) (chance : Chance) (b : Builder V)
    (instanceId channel : String) (faults : Faults) :
    (c.build chance b instanceId channel faults).2.Served := by
  unfold Cluster.build
  dsimp only
  cases b.pod chance instanceId channel with
  | error e => exact (h.join { pod := none, faults } instanceId channel).drop c.members.size false
  | ok pod =>
    dsimp only
    have hstart := (h.join { pod := some pod, faults } instanceId channel).sways
      (sways_act _ (i := c.members.size) Pod.start
        fun faults => Pod.blind_start ((Shared.blind_services_kept _ _ _).disturbed faults))
    generalize (c.join { pod := some pod, faults } instanceId channel).act c.members.size
      Pod.start = done at hstart ⊢
    obtain ⟨_ | ⟨e | _, notes⟩, c'⟩ := done
    · exact hstart
    · exact hstart.drop c.members.size false
    · exact hstart

theorem Served.undergo (h : c.Served) (x : Incident V) : (c.undergo x).2.Served := by
  rcases c.exists_sways x with ⟨i, hs⟩ | ⟨i, keepSynchronizer, rfl⟩ |
    ⟨chance, b, instanceId, channel, faults, rfl⟩
  · exact h.sways hs
  · exact h.drop i keepSynchronizer
  · exact h.build chance b instanceId channel faults

/-- Whatever happens, the pods own their synchronizers. -/
theorem Served.afterAll (h : c.Served) (xs : List (Incident V)) : (c.afterAll xs).Served := by
  induction xs generalizing c with
  | nil => exact h
  | cons x xs ih => exact ih (h.undergo x)

theorem served_withCapacity (capacity : Nat) : (withCapacity capacity : Cluster V).Served :=
  ⟨rfl, fun i pod h => by cases h⟩

end Cluster

end PodCache
