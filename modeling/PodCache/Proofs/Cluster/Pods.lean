import PodCache.Proofs.Cluster.Receipt
import PodCache.Proofs.Local.Bookkeeping
import PodCache.Proofs.Pod.PeerEvents

/-!
# Pods of clusters

A pod of a cluster is what its builder made and what has happened to it since, whatever happens to
the others (`stems_of_pod?`).  So what holds of a pod on its own holds of the pods of a
cluster: their counts agree with those of their local caches (`balanced_of_pod?`), their frequency
caches keep the bound (`bounded_of_pod?`), and what the events of peers that are delivered to them
make of their local contents is a fold (`heeded_deliver`).
-/

namespace PodCache

variable {V ω : Type}

/-! ## Pods of a builder -/

namespace Builder

variable {b : Builder V} {chance : Chance} {localCache : LocalCache V}

/-- The pod of a builder, with a local cache. -/
def made (b : Builder V) (localCache : LocalCache V) : Pod V where
  settings := b.settings
  localCache := localCache

/-- The local cache of the pod is a new one, whether a factory makes it or not. -/
def MakesNew (b : Builder V) : Prop :=
  ∀ localCache, b.factory = some (.ok localCache) →
    ∃ chance kind config, LocalCache.new chance kind config = .ok localCache

theorem MakesNew.exists_new (h : b.MakesNew) (hl : b.localCache chance = .ok localCache) :
    ∃ chance kind config, LocalCache.new chance kind config = .ok localCache := by
  unfold Builder.localCache at hl
  cases hf : b.factory with
  | none =>
    rw [hf] at hl
    exact ⟨chance, .frequency, b.localConfig, hl⟩
  | some factory =>
    rw [hf] at hl
    exact h localCache (hl ▸ hf)

/-- A builder that makes a pod has been given a synchronizer of its own identity. -/
theorem exists_made_of_pod {instanceId channel : String} {pod : Pod V}
    (h : b.pod chance instanceId channel = .ok pod) :
    instanceId = b.instanceId ∧
      ∃ localCache, b.localCache chance = .ok localCache ∧ pod = b.made localCache := by
  refine ⟨?_, b.pod_eq_of_ok h⟩
  by_contra hne
  have hfalse : (instanceId == b.instanceId) = false := by simpa using hne
  unfold Builder.pod at h
  rw [checkSynchronizer, hfalse] at h
  cases hv : b.validate with
  | error e =>
    rw [hv] at h
    cases h
  | ok =>
    rw [hv] at h
    cases h

end Builder

/-! ## What holds of a pod after a history -/

namespace Pod

variable {b : Builder V} {chance : Chance} {localCache : LocalCache V} {p : Pod V}
  {config : LocalConfig} {keys : List String}

theorem settings_after (p : Pod V) (history : List (Occasion V ω)) :
    (p.after history).settings = p.settings := (p.adds_after history).settings

theorem balanced_after (hb : b.MakesNew) (hl : b.localCache chance = .ok localCache)
    (history : List (Occasion V ω)) : ((b.made localCache).after history).Balanced := by
  obtain ⟨_, _, _, hnew⟩ := hb.exists_new hl
  exact ((b.made localCache).adds_after history).balanced (balanced_of_new hnew rfl)

/-- A frequency cache of a pod has served requests, and keeps its bound like any other. -/
theorem bounded_after (hb : b.factory = none) (hl : b.localCache chance = .ok localCache)
    (history : List (Occasion V ω)) :
    ∃ c, ((b.made localCache).after history).localCache = .frequency c ∧
      (c.overflowed = false → c.policy.totalCost ≤ b.localConfig.maxCost.toNat ∧
        c.residentCost ≤
          max 1 b.localConfig.bufferItems.toNat * b.localConfig.maxCost.toNat) ∧
      (c.maintain.overflowed = false →
        c.maintain.residentCost ≤ b.localConfig.maxCost.toNat) := by
  obtain ⟨rs, hrs⟩ := ((b.made localCache).adds_after history).served
  unfold Builder.localCache at hl
  rw [hb] at hl
  cases LocalCache.isNew_of_new hl with
  | @frequency c hc =>
    refine ⟨c.run rs, ?_, FrequencyCache.residentCost_run_le hc, fun hfit => ?_⟩
    · rw [hrs]
      exact FrequencyCache.run_frequency c rs
    · exact ((FrequencyCache.balanced_run hc rs).residentCost_maintain hfit).2

/-- Whatever events an open pod receives with room for their keys, it heeds them in turn. -/
theorem heeds_after (ho : p.closed = false) (hroom : p.localCache.Roomy config keys) (w : ω)
    {payloads : List Bytes}
    (hk : ∀ e ∈ payloads.filterMap (Event.heardBy p.settings.instanceId),
      e.action = .set → e.key ∈ keys) :
    ((p.after (payloads.map (.receive w))).localCache.contents,
        (p.after (payloads.map (.receive w))).transformed) =
      (payloads.filterMap (Event.heardBy p.settings.instanceId)).foldl p.settings.heed
        (p.localCache.contents, p.transformed) := by
  induction payloads generalizing p with
  | nil => rfl
  | cons payload payloads ih =>
    have hon := p.on_receive w payload
    rw [show p.after ((payload :: payloads).map (.receive w)) =
      (p.on (.receive w payload)).after (payloads.map (.receive w)) from rfl]
    cases heard : Event.heardBy p.settings.instanceId payload with
    | none =>
      rw [heard] at hon
      rw [List.filterMap_cons_none heard] at hk ⊢
      rw [show p.on (.receive w payload) = p from hon]
      exact ih ho hroom hk
    | some e =>
      rw [heard] at hon
      rw [List.filterMap_cons_some heard] at hk ⊢
      rw [List.forall_mem_cons] at hk
      obtain ⟨p₁, ds, hpath, hdoes⟩ := does_handleEvent (ω := ω) ho e
      obtain ⟨-, hpod, -⟩ := Does.deeds (s := ⟨p, w, []⟩) (hdoes w)
      obtain ⟨hheed, -, hroom₁⟩ := hpath.heeds hroom hk.1
      obtain ⟨hsettings, hclosed⟩ := hpath.frame
      rw [show p.on (.receive w payload) = p₁ from hon.trans hpod, List.foldl_cons, ← hheed]
      rw [← hsettings] at hk ⊢
      exact ih (hclosed.trans ho) hroom₁ hk.2

end Pod

/-! ## Pods and what is delivered to them -/

namespace Cluster

variable {α : Type} {c : Cluster V} {i : Nat} {p : Pod V} {x : Incident V}

/-- A pod of a cluster, with a synchronizer that speaks for it. -/
structure Hosts (c : Cluster V) (i : Nat) (p : Pod V) : Prop where
  pod : c.pod? i = some p
  listens : ∃ s, c.shared.bus.synchronizers[i]? = some s ∧
    s.listeners = .ofPod p.settings.instanceId

theorem Hosts.lt (h : c.Hosts i p) : i < c.members.size := by
  obtain ⟨faults, hm⟩ := member_of_pod? h.pod
  exact (Array.getElem?_eq_some_iff.1 hm).1

theorem plain_ofPod (instanceId : String) : (Listeners.ofPod instanceId).Plain :=
  fun _ hc => by rw [List.mem_singleton.1 hc]

/-- A synchronizer still speaks for its pod when the pod has done something. -/
theorem Hosts.sways {c' : Cluster V} {p' : Pod V} (h : c.Hosts i p) (hs : Sways i c c')
    (hp : c'.pod? i = some p') (hset : p'.settings = p.settings) : c'.Hosts i p' := by
  obtain ⟨s, hsync, hl⟩ := h.listens
  obtain ⟨s', hsync', hl'⟩ := hs.bus.listeners s hsync (hl ▸ plain_ofPod _)
  exact ⟨hp, s', hsync', by rw [hl', hl, hset]⟩

theorem pod?_act_run (step : Services (Shared Unit) → Act V (Shared Unit) α) {faults : Faults}
    (hm : c.members[i]? = some { pod := some p, faults }) :
    (c.act i step).2.pod? i =
      some ((step (services i faults)).run ⟨p, c.shared, []⟩).2.pod := by
  rw [act_eq step hm rfl, pod?, Array.getElem?_modify, if_pos rfl, hm]
  rfl

/-- Whatever happens in a cluster, short of its going away, is a history to a pod. -/
theorem Hosts.undergo (h : c.Hosts i p) (hd : ¬ x.Drops i) :
    ∃ history : List (Occasion V (Shared Unit)), (c.undergo x).2.Hosts i (p.after history) := by
  obtain ⟨faults, hm⟩ := member_of_pod? h.pod
  -- a call is one occasion and a delivery several; all else leaves the pod, or makes a pass
  by_cases hx : x.Concerns i
  · cases x with
    | call j op =>
      obtain rfl : j = i := hx
      refine ⟨[.call (services j faults) c.shared op], h.sways ?_
        (pod?_act_run (fun services => op.perform services) hm) (p.settings_after _)⟩
      exact sways_act c (fun services => op.perform services) fun faults =>
        Pod.blind_perform ((Shared.blind_services_kept _ _ _).disturbed faults) op
    | deliver j count =>
      obtain rfl : j = i := hx
      obtain ⟨s, hs, hl⟩ := h.listens
      exact ⟨_, h.sways (sways_deliver c j count) (pod?_deliver h.pod hs hl count c.shared)
        (p.settings_after _)⟩
    | maintain | build | drop | setFault | publishRaw | storeSet | storeGet => exact hx.elim
  · obtain ⟨s, hs, hl⟩ := h.listens
    have hsync := synchronizer_undergo hs h.lt hx hd
    obtain ⟨⟨pod, faults'⟩, hm', hpod⟩ := exists_member_undergo hm hx hd
    have hp' : (c.undergo x).2.pod? i = pod := by
      rw [pod?, hm']
      rfl
    rcases hpod with rfl | rfl
    · exact ⟨[], hp', s, hsync, hl⟩
    · exact ⟨[.maintain], hp', s, hsync, hl⟩

theorem Hosts.afterAll (h : c.Hosts i p) {xs : List (Incident V)} (hd : ∀ x ∈ xs, ¬ x.Drops i) :
    ∃ history : List (Occasion V (Shared Unit)), (c.afterAll xs).Hosts i (p.after history) := by
  induction xs generalizing c p with
  | nil => exact ⟨[], h⟩
  | cons x xs ih =>
    rw [List.forall_mem_cons] at hd
    obtain ⟨first, hfirst⟩ := h.undergo hd.1
    obtain ⟨rest, hrest⟩ := ih hfirst hd.2
    refine ⟨first ++ rest, ?_⟩
    rw [Pod.after, List.foldl_append]
    exact hrest

/-! ## Where pods come from -/

theorem pod?_drop (c : Cluster V) (i : Nat) (keepSynchronizer : Bool) :
    (c.drop i keepSynchronizer).pod? i = none := by
  have hnone : (c.modify i fun m => { m with pod := none }).pod? i = none := by
    rw [pod?_modify]
    cases c.members[i]? <;> rfl
  unfold drop
  dsimp only
  split_ifs <;> exact hnone

/-- A pod that has been built is what its builder made, and has started. -/
theorem exists_origin_of_build {chance : Chance} {b : Builder V} {instanceId channel : String}
    {faults : Faults} (hs : c.Served)
    (hp : (c.build chance b instanceId channel faults).2.pod? c.members.size = some p) :
    ∃ localCache, ∃ history : List (Occasion V (Shared Unit)),
      b.localCache chance = .ok localCache ∧ p = (b.made localCache).after history ∧
      (c.build chance b instanceId channel faults).2.Hosts c.members.size p := by
  unfold build at hp ⊢
  dsimp only at hp ⊢
  cases hb : b.pod chance instanceId channel with
  | error halt =>
    rw [hb] at hp
    rw [pod?_drop] at hp
    cases hp
  | ok pod =>
    rw [hb] at hp
    obtain ⟨rfl, localCache, hl, rfl⟩ := b.exists_made_of_pod hb
    dsimp only at hp ⊢
    set joined := c.join { pod := some (b.made localCache), faults } b.instanceId channel
    have hbus : joined.shared.bus = c.shared.bus.attach channel b.instanceId := by
      rw [Bus.attach, hs.size]
      rfl
    have hm : joined.members[c.members.size]? = some { pod := some (b.made localCache), faults } :=
      Array.getElem?_push_size
    have hjoined : joined.Hosts c.members.size (b.made localCache) := by
      refine ⟨by rw [pod?, hm]; rfl, { channel, listeners := .ofPod b.instanceId }, ?_, rfl⟩
      rw [hbus, Bus.synchronizers_attach, ← hs.size, Array.getElem?_push_size]
    have hstarted := hjoined.sways (sways_act joined Pod.start fun faults =>
      Pod.blind_start ((Shared.blind_services_kept _ _ _).disturbed faults))
      (pod?_act_run Pod.start hm) ((b.made localCache).settings_after
        [.start (services c.members.size faults) joined.shared])
    refine ⟨localCache, [.start (services c.members.size faults) joined.shared], hl, ?_⟩
    generalize joined.act c.members.size Pod.start = done at hp hstarted ⊢
    obtain ⟨_ | ⟨e | _, notes⟩, c'⟩ := done
    · obtain rfl := Option.some.inj (hstarted.pod.symm.trans hp)
      exact ⟨rfl, hstarted⟩
    · rw [pod?_drop] at hp
      cases hp
    · obtain rfl := Option.some.inj (hstarted.pod.symm.trans hp)
      exact ⟨rfl, hstarted⟩

/-- Only a new pod appears where there was none. -/
theorem isSome_pod?_undergo (hp : ((c.undergo x).2.pod? i).isSome) :
    (c.pod? i).isSome ∨ ∃ chance b instanceId channel faults,
      x = .build chance b instanceId channel faults ∧ i = c.members.size := by
  rcases c.exists_sways x with ⟨j, hs⟩ | ⟨j, keepSynchronizer, rfl⟩ |
    ⟨chance, b, instanceId, channel, faults, rfl⟩
  · left
    by_cases hj : i = j
    · subst hj
      exact hs.pod hp
    · rwa [pod?, hs.others i hj] at hp
  · left
    by_cases hj : j = i
    · subst hj
      rw [show ((c.undergo (.drop j keepSynchronizer)).2.pod? j) = none from c.pod?_drop j _] at hp
      cases hp
    · rwa [pod?, show (c.undergo (.drop j keepSynchronizer)).2.members[i]? = c.members[i]? from
        members_drop c hj keepSynchronizer] at hp
  · by_cases hi : i = c.members.size
    · exact .inr ⟨chance, b, instanceId, channel, faults, rfl, hi⟩
    · left
      rwa [pod?, show (c.undergo (.build chance b instanceId channel faults)).2.members[i]? =
        c.members[i]? from members_build c hi _ _ _ _ _] at hp

/-- A pod that one of several incidents has built, after a history. -/
inductive Stems (xs : List (Incident V)) : Pod V → Prop
  | intro {chance : Chance} {b : Builder V} {instanceId channel : String} {faults : Faults}
    {localCache : LocalCache V} (history : List (Occasion V (Shared Unit)))
    (built : .build chance b instanceId channel faults ∈ xs)
    (made : b.localCache chance = .ok localCache) : Stems xs ((b.made localCache).after history)

theorem Stems.append {xs : List (Incident V)} (h : Stems xs p) (ys : List (Incident V))
    (later : List (Occasion V (Shared Unit))) : Stems (xs ++ ys) (p.after later) := by
  cases h with
  | @intro _ b _ _ _ localCache history built made =>
    have hafter : ((b.made localCache).after history).after later =
        (b.made localCache).after (history ++ later) := List.foldl_append.symm
    exact hafter ▸ .intro (history ++ later) (List.mem_append_left _ built) made

variable {capacity count : Nat} {xs : List (Incident V)}

/-- Every pod of a cluster has been built by an incident and has had a history since, and its
synchronizer speaks for it. -/
theorem stems_of_pod? (hp : ((withCapacity capacity).afterAll xs).pod? i = some p) :
    Stems xs p ∧ ((withCapacity capacity).afterAll xs).Hosts i p := by
  induction xs using List.reverseRecOn generalizing p with
  | nil => cases hp
  | append_singleton xs x ih =>
    have hserved : ((withCapacity capacity : Cluster V).afterAll xs).Served :=
      (served_withCapacity capacity).afterAll xs
    set c : Cluster V := (withCapacity capacity).afterAll xs
    have hlast : (withCapacity capacity).afterAll (xs ++ [x]) = (c.undergo x).2 := by
      rw [afterAll, List.foldl_append]
      rfl
    rw [hlast] at hp ⊢
    -- the last incident goes on with the history of a pod, or begins one
    cases hbefore : c.pod? i with
    | some p₀ =>
      obtain ⟨hstems, hhosts⟩ := ih hbefore
      by_cases hd : x.Drops i
      · cases x with
        | drop j keepSynchronizer =>
          obtain rfl : j = i := hd
          cases (c.pod?_drop j keepSynchronizer).symm.trans hp
        | call | deliver | maintain | build | setFault | publishRaw | storeSet | storeGet =>
          exact hd.elim
      · obtain ⟨history, hafter⟩ := hhosts.undergo hd
        obtain rfl := Option.some.inj (hafter.pod.symm.trans hp)
        exact ⟨hstems.append [x] history, hafter⟩
    | none =>
      obtain hsome | ⟨chance, b, instanceId, channel, faults, rfl, rfl⟩ :=
        isSome_pod?_undergo (Option.isSome_of_eq_some hp)
      · rw [hbefore] at hsome
        cases hsome
      · obtain ⟨localCache, history, hl, rfl, hhosts⟩ := exists_origin_of_build hserved hp
        exact ⟨.intro history (List.mem_append_right _ (List.mem_singleton_self _)) hl, hhosts⟩

/-! ## Main results -/

/-- The counts of every pod of a cluster agree with one another and with those of its local cache,
whatever has happened, if the local caches were new when the pods were built. -/
theorem balanced_of_pod?
    (hb : ∀ chance (b : Builder V) instanceId channel faults,
      .build chance b instanceId channel faults ∈ xs → b.MakesNew)
    (hp : ((withCapacity capacity).afterAll xs).pod? i = some p) : p.Balanced := by
  obtain ⟨⟨history, built, made⟩, -⟩ := stems_of_pod? hp
  exact Pod.balanced_after (hb _ _ _ _ _ built) made history

/-- No count of a pod goes back while the pod is there, whatever happens in the cluster. -/
theorem atMost_of_pod? (hp : ((withCapacity capacity).afterAll xs).pod? i = some p)
    {later : List (Incident V)} (hd : ∀ x ∈ later, ¬ x.Drops i) :
    ∃ p', ((withCapacity capacity).afterAll (xs ++ later)).pod? i = some p' ∧
      p.stats.AtMost p'.stats := by
  obtain ⟨-, hhosts⟩ := stems_of_pod? hp
  obtain ⟨history, hafter⟩ := hhosts.afterAll hd
  rw [afterAll, List.foldl_append]
  exact ⟨_, hafter.pod, (p.adds_after history).grows⟩

/-- A pod that was built without a factory keeps the bound of its builder, if no sum of costs is
too great. -/
theorem bounded_of_pod?
    (hb : ∀ chance (b : Builder V) instanceId channel faults,
      .build chance b instanceId channel faults ∈ xs → b.factory = none)
    (hp : ((withCapacity capacity).afterAll xs).pod? i = some p) :
    ∃ chance instanceId channel faults, ∃ b : Builder V,
      .build chance b instanceId channel faults ∈ xs ∧
      ∃ c : FrequencyCache V, p.localCache = .frequency c ∧
        (c.overflowed = false → c.policy.totalCost ≤ b.localConfig.maxCost.toNat ∧
          c.residentCost ≤
            max 1 b.localConfig.bufferItems.toNat * b.localConfig.maxCost.toNat) ∧
        (c.maintain.overflowed = false →
          c.maintain.residentCost ≤ b.localConfig.maxCost.toNat) := by
  obtain ⟨⟨history, built, made⟩, -⟩ := stems_of_pod? hp
  exact ⟨_, _, _, _, _, built, Pod.bounded_after (hb _ _ _ _ _ built) made history⟩

/-- Whatever waits for an open pod with room for its keys, the pod heeds in turn when it is
delivered. -/
theorem heeded_deliver {config : LocalConfig} {keys : List String}
    (hp : ((withCapacity capacity).afterAll xs).pod? i = some p) (ho : p.closed = false)
    (hroom : p.localCache.Roomy config keys)
    (hk : ∀ payload ∈ ((withCapacity capacity).afterAll xs : Cluster V).shared.bus.waiting i,
      ∀ e, Event.heardBy p.settings.instanceId payload = some e → e.action = .set → e.key ∈ keys) :
    ∃ p', (((withCapacity capacity).afterAll xs).deliver i count).2.pod? i = some p' ∧
      (p'.localCache.contents, p'.transformed) =
        (((((withCapacity capacity).afterAll xs : Cluster V).shared.bus.waiting i).take
          count).filterMap (Event.heardBy p.settings.instanceId)).foldl p.settings.heed
          (p.localCache.contents, p.transformed) := by
  obtain ⟨-, -, s, hs, hl⟩ := stems_of_pod? hp
  set c : Cluster V := (withCapacity capacity).afterAll xs
  refine ⟨_, pod?_deliver hp hs hl count c.shared, Pod.heeds_after ho hroom c.shared ?_⟩
  intro e he
  obtain ⟨payload, hmem, heard⟩ := List.mem_filterMap.1 he
  exact hk payload (List.mem_of_mem_take hmem) e heard

end Cluster

end PodCache
