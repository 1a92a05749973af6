import PodCache.Codec.Binary
import PodCache.Proofs.Cluster.Run

/-!
# Coherence

A pod is coherent if its local cache, once everything that waits for the pod has been heard, has
nothing but what the store has (`Coherent`).  Lookups, deliveries and maintenance keep a pod
coherent, whatever it reads ahead of what waits for it.  A write keeps the peers coherent, as they
will hear of it last; it keeps the writer coherent if nothing waits for it that sets a value.
-/

namespace PodCache

variable {V : Type}

/-- The local cache is of one of the kinds that there are, and new. -/
def Builder.IsStandard (b : Builder V) : Prop :=
  ∀ made, b.factory = some made →
    ∃ (chance : Chance) (kind : LocalCache.Kind) (config : LocalConfig),
      made = LocalCache.new chance kind config

theorem Builder.localCache_of_isStandard {b : Builder V} {chance : Chance}
    {localCache : LocalCache V} (hb : b.IsStandard) (h : b.localCache chance = .ok localCache) :
    localCache.contents = .empty ∧ localCache.takes 1 := by
  unfold Builder.localCache at h
  cases hf : b.factory with
  | none =>
    rw [hf] at h
    exact ⟨LocalCache.contents_of_new h, LocalCache.takes_one_of_new h⟩
  | some made =>
    rw [hf] at h
    obtain ⟨chance', kind, config, rfl⟩ := hb made hf
    exact ⟨LocalCache.contents_of_new h, LocalCache.takes_one_of_new h⟩

namespace Cluster

/-- A pod of a codec, on a channel, that is served and has entries of cost one only. -/
structure Tuned (c : Cluster V) (codec : Codec V) (channel : String) (i : Nat)
    (k : Core V (Shared Unit)) : Prop where
  has : c.Has i k
  codec_eq : k.settings.codec = codec
  plain : k.Plain
  serves : k.world.Serves i channel k.settings.instanceId

/-- The events that a pod has yet to hear. -/
def backlog (i : Nat) (k : Core V (Shared Unit)) : List Event :=
  k.world.backlog i k.settings.instanceId

/-- Once a pod has heard what waits for it, it has nothing but what the store has. -/
def Coherent (codec : Codec V) (i : Nat) (k : Core V (Shared Unit)) : Prop :=
  (k.localCache.contents.hearAll codec (backlog i k)).Sub (k.world.stored codec)

variable {c c' : Cluster V} {codec : Codec V} {channel : String} {i j : Nat}
  {k k' : Core V (Shared Unit)} {m : Move V}

theorem backlog_of_keeps (h : Core.Keeps k k') : backlog i k' = backlog i k := by
  rw [backlog, backlog, h.world, h.settings]

/-- A coherent pod stays coherent when it drops entries. -/
theorem Coherent.of_sub (h : Coherent codec i k) (hk : Core.Keeps k k')
    (hc : k'.localCache.contents.Sub k.localCache.contents) : Coherent codec i k' := by
  rw [Coherent, backlog_of_keeps hk, hk.world]
  exact (hc.hearAll _).trans h

theorem Tuned.of_turn (h : c.Tuned codec channel i k) (ht : Turn i k' c c')
    (hk : Core.Keeps k k') (hp : k'.Plain) : c'.Tuned codec channel i k' := by
  refine ⟨ht.has, by rw [hk.settings, h.codec_eq], hp, ?_⟩
  rw [hk.world, hk.settings]
  exact h.serves

/-! ## Lookups -/

theorem Tuned.fetched (h : c.Tuned codec channel i k) (key : String) :
    (k.look key).fetched (services i Faults.none) key = k.world.stored codec key := by
  have hw : (k.look key).world = k.world := rfl
  have hs : (k.look key).settings = k.settings := rfl
  rw [fetched_services (by rw [hw]; exact h.serves.handle), hw, hs, h.codec_eq]

/-- A lookup gives the local value, or else what the store has. -/
theorem Tuned.get_fst (h : c.Tuned codec channel i k) (key : String) :
    (c.act i fun services => Pod.get services key).1.map Prod.fst =
      some ((k.localCache.contents key).or (k.world.stored codec key)) := by
  cases hit : k.localCache.contents key with
  | some value => exact (turn_get_of_hit h.has hit).1
  | none =>
    rw [(turn_get_of_miss h.has hit).1, h.fetched key]
    rfl

/-- What a lookup fetches agrees with the store, so it does no harm that it comes ahead of what
waits. -/
theorem Tuned.get (h : c.Tuned codec channel i k) (hco : Coherent codec i k) (key : String) :
    ∃ k', (c.after (.get i key)).Tuned codec channel i k' ∧ Core.Keeps k k' ∧
      Coherent codec i k' := by
  cases hit : k.localCache.contents key with
  | some value =>
    refine ⟨k.look key, h.of_turn (turn_get_of_hit h.has hit).2 ⟨rfl, rfl, rfl⟩
      (h.plain.look key), ⟨rfl, rfl, rfl⟩, ?_⟩
    exact hco.of_sub ⟨rfl, rfl, rfl⟩ (.of_eq (k.contents_look key))
  | none =>
    have ht := (turn_get_of_miss h.has hit).2
    rw [h.fetched key] at ht
    cases hv : k.world.stored codec key with
    | none =>
      rw [hv] at ht
      refine ⟨k.look key, h.of_turn ht ⟨rfl, rfl, rfl⟩ (h.plain.look key), ⟨rfl, rfl, rfl⟩, ?_⟩
      exact hco.of_sub ⟨rfl, rfl, rfl⟩ (.of_eq (k.contents_look key))
    | some value =>
      rw [hv] at ht
      have hp := h.plain.look key
      refine ⟨(k.look key).keep key value, h.of_turn ht ⟨rfl, rfl, rfl⟩ (hp.keep key value),
        ⟨rfl, rfl, rfl⟩, ?_⟩
      have hsub := hp.contents_keep key value
      rw [k.contents_look key] at hsub
      exact (hsub.hearAll _).trans (Contents.hearAll_put_sub hco hv)

/-! ## Maintenance -/

theorem Tuned.maintain (h : c.Tuned codec channel i k) (hco : Coherent codec i k) :
    ∃ k', (c.after (.maintain i)).Tuned codec channel i k' ∧ Core.Keeps k k' ∧
      Coherent codec i k' := by
  have hp : Core.Plain { k with localCache := k.localCache.maintain } :=
    ⟨h.plain.unweighed, (LocalCache.takes_maintain k.localCache 1).2 h.plain.takes_one⟩
  refine ⟨_, h.of_turn (turn_maintain h.has) ⟨rfl, rfl, rfl⟩ hp, ⟨rfl, rfl, rfl⟩, ?_⟩
  exact hco.of_sub ⟨rfl, rfl, rfl⟩ k.localCache.contents_maintain_sub

/-! ## Deliveries -/

/-- What is delivered is heard, and the rest goes on waiting. -/
theorem Tuned.deliver (h : c.Tuned codec channel i k) (count : Nat) :
    ∃ (k' : Core V (Shared Unit)) (heard : List Event),
      (c.after (.deliver i count)).Tuned codec channel i (k'.appliedAll heard) ∧
      k'.settings = k.settings ∧ k'.localCache = k.localCache ∧
      k'.world.stored codec = k.world.stored codec ∧
      backlog i k = heard ++ backlog i k' ∧
        (k.world.bus.pending i ≤ count → backlog i k' = []) := by
  obtain ⟨position, hl⟩ := h.serves.listens
  obtain ⟨⟨position', hl'⟩, hwait, hheard⟩ := hl.take count
  have ht := turn_deliver h.has count
  set k' : Core V (Shared Unit) := { k with world.bus := (k.world.bus.take i count).2 }
  have hk := k'.keeps_appliedAll ((k.world.bus.take i count).1.filterMap Occurrence.event?)
  have hp : k'.Plain := ⟨h.plain.unweighed, h.plain.takes_one⟩
  refine ⟨k', _, ⟨ht.has, ?_, hp.appliedAll _, ?_⟩, rfl, rfl, rfl, ?_, ?_⟩
  · rw [hk.settings]
    exact h.codec_eq
  · rw [hk.settings, hk.world]
    exact ⟨h.serves.handle, position', hl'⟩
  · show (k.world.bus.waiting i).filterMap _ =
      _ ++ ((k.world.bus.take i count).2.waiting i).filterMap _
    rw [hheard, hwait, ← List.filterMap_append, List.take_append_drop]
  · intro hc
    show ((k.world.bus.take i count).2.waiting i).filterMap _ = []
    rw [Bus.pending_eq] at hc
    rw [hwait, List.drop_eq_nil_of_le hc]
    rfl

/-- A pod that hears what is delivered without a transform, or to which nothing is delivered that
peers have sent, stays coherent. -/
theorem Tuned.coherent_deliver (h : c.Tuned codec channel i k) (hco : Coherent codec i k)
    (ht : k.settings.transform = none ∨ backlog i k = []) (count : Nat) :
    ∃ k', (c.after (.deliver i count)).Tuned codec channel i k' ∧ k'.settings = k.settings ∧
      Coherent codec i k' ∧ backlog i k' <:+ backlog i k ∧
      (k.world.bus.pending i ≤ count → backlog i k' = []) := by
  obtain ⟨k', heard, htuned, hs, hl, hstored, hb, hall⟩ := h.deliver count
  have hk := k'.keeps_appliedAll heard
  have hback : backlog i (k'.appliedAll heard) = backlog i k' := backlog_of_keeps hk
  refine ⟨k'.appliedAll heard, htuned, hk.settings.trans hs, ?_, ?_, ?_⟩
  · rw [Coherent, hback, hk.world, hstored]
    rw [Coherent] at hco
    rcases ht with ht | hnil
    · have hp : k'.Plain := ⟨by rw [hs, h.plain.unweighed], by rw [hl]; exact h.plain.takes_one⟩
      have hc := hp.contents_appliedAll (by rw [hs, ht]) heard
      rw [hs, h.codec_eq, hl] at hc
      rw [hb, Contents.hearAll_append] at hco
      exact (hc.hearAll _).trans hco
    · rw [hnil] at hb hco
      obtain ⟨rfl, hnil'⟩ := List.append_eq_nil_iff.1 hb.symm
      rw [hnil', Core.appliedAll, List.foldl_nil, hl]
      exact hco
  · rw [hback, hb]
    exact List.suffix_append heard _
  · rwa [hback]

/-- A pod that moves locally stays coherent; it may have less to hear. -/
theorem Tuned.coherent_after (h : c.Tuned codec channel i k) (hco : Coherent codec i k)
    (ht : k.settings.transform = none ∨ backlog i k = []) (hm : c.mover m = i)
    (hl : m.IsLocal) :
    ∃ k', (c.after m).Tuned codec channel i k' ∧ k'.settings = k.settings ∧
      Coherent codec i k' ∧ backlog i k' <:+ backlog i k := by
  cases m with
  | build | write => exact hl.elim
  | get j key =>
    obtain rfl : j = i := hm
    obtain ⟨k', ht, hk, hco⟩ := h.get hco key
    exact ⟨k', ht, hk.settings, hco, by rw [backlog_of_keeps hk]⟩
  | deliver j count =>
    obtain rfl : j = i := hm
    obtain ⟨k', ht, hs, hco, hb, -⟩ := h.coherent_deliver hco ht count
    exact ⟨k', ht, hs, hco, hb⟩
  | maintain j =>
    obtain rfl : j = i := hm
    obtain ⟨k', ht, hk, hco⟩ := h.maintain hco
    exact ⟨k', ht, hk.settings, hco, by rw [backlog_of_keeps hk]⟩

/-- A pod that has nothing to hear has nothing but what the store has, and so its lookups give what
the store has. -/
theorem Coherent.sub (hco : Coherent codec i k) (hb : backlog i k = []) :
    k.localCache.contents.Sub (k.world.stored codec) := by
  rwa [Coherent, hb] at hco

theorem Tuned.get_eq_stored (h : c.Tuned codec channel i k) (hco : Coherent codec i k)
    (hb : backlog i k = []) (key : String) :
    (c.act i fun services => Pod.get services key).1.map Prod.fst =
      some (c.shared.stored codec key) := by
  rw [h.get_fst key, ← h.has.world]
  cases hv : k.localCache.contents key with
  | none => rfl
  | some value =>
    rw [hco.sub hb key value hv]
    rfl

theorem backlog_eq_nil (hk : c.Has i k) (hp : c.pending i = 0) : backlog i k = [] := by
  rw [pending, Bus.pending_eq, List.length_eq_zero_iff, ← hk.world] at hp
  rw [backlog, Shared.backlog, hp]
  rfl

/-! ## Pods that do not move -/

/-- What concerns another pod only leaves a pod tuned and coherent, with the same backlog. -/
theorem Tuned.undisturbed (h : c.Tuned codec channel i k) (hu : Undisturbed j c c') (hij : i ≠ j) :
    c'.Tuned codec channel i { k with world := c'.shared } ∧
      backlog i { k with world := c'.shared } = backlog i k ∧
      (Coherent codec i k → Coherent codec i { k with world := c'.shared }) := by
  have hsame := hu.sameFor i hij h.has.lt
  rw [← h.has.world] at hsame
  have hb : backlog i { k with world := c'.shared } = backlog i k := hsame.backlog _
  refine ⟨⟨h.has.of_eq (hu.others i hij), h.codec_eq, ⟨h.plain.unweighed, h.plain.takes_one⟩,
    hsame.serves h.serves⟩, hb, fun hco => ?_⟩
  rw [Coherent, hb, hsame.stored]
  exact hco

/-! ## New pods -/

/-- A new pod has nothing, and nothing waits for it. -/
theorem Sound.tuned_build (hs : c.Sound) {chance : Chance} {b : Builder V}
    (hc : c.Can (.build chance b)) (hw : b.weigher = none) (hb : b.IsStandard) :
    ∃ k, (c.after (.build chance b)).Tuned b.codec b.channel c.members.size k ∧
      k.settings = b.settings ∧ backlog c.members.size k = [] ∧
      Coherent b.codec c.members.size k := by
  obtain ⟨-, -, localCache, hl, hhas⟩ := has_build rfl hc hs.synchronizers
  obtain ⟨hempty, htakes⟩ := Builder.localCache_of_isStandard hb hl
  have hserves := c.shared.serves_welcome b.channel b.instanceId
    (by rw [hs.handles, hs.synchronizers])
  have hback := c.shared.backlog_welcome b.channel b.instanceId
  rw [hs.synchronizers] at hserves hback
  set k : Core V (Shared Unit) := ⟨b.settings, false, localCache, [], _⟩
  refine ⟨k, ⟨hhas, rfl, ⟨hw, htakes⟩, hserves⟩, rfl, hback, ?_⟩
  rw [Coherent, show backlog c.members.size k = [] from hback, Contents.hearAll_nil, hempty]
  exact Contents.empty_sub _

/-! ## Writes -/

/-- The writer stays coherent if nothing waits for it that sets a value, and if it keeps up or
nothing waits for it at all. -/
theorem Tuned.write {w : Write V} (h : c.Tuned codec channel i k) (hf : codec.Faithful)
    (hw : k.settings.writeThrough = true)
    (hup : (c.after (.write i w)).shared.bus.KeepsUp ∨ backlog i k = []) :
    ∃ k', Turn i k' c (c.after (.write i w)) ∧
      k'.world = w.onShared codec channel k.settings.instanceId k.world ∧
      (c.after (.write i w)).Tuned codec channel i k' ∧
      k'.settings = k.settings ∧ backlog i k' = backlog i k ∧
      ((∀ e ∈ backlog i k, e.action ≠ .set) → Coherent codec i k → Coherent codec i k') := by
  have ht := (turn_write h.has h.serves (h.codec_eq ▸ hf) hw w).2
  rw [h.codec_eq] at ht
  have hk := w.keeps_onCore k
  set k' : Core V (Shared Unit) :=
    { w.onCore k with world := w.onShared codec channel k.settings.instanceId k.world }
  have hs : k'.settings = k.settings := hk.settings
  have hp : k'.Plain := ⟨(w.plain_onCore h.plain).unweighed, (w.plain_onCore h.plain).takes_one⟩
  have hb : backlog i k' = backlog i k := by
    unfold backlog at hup ⊢
    rw [hs]
    rcases hup with hup | hnil
    · rw [show (c.after (.write i w)).shared = k'.world from ht.shared] at hup
      exact Write.backlog_onShared_self h.serves hup
    · rw [hnil, List.eq_nil_iff_forall_not_mem]
      intro e he
      have := Write.mem_backlog_onShared h.serves he
      rw [hnil] at this
      exact List.not_mem_nil this
  refine ⟨k', ht, rfl, ⟨ht.has, by rw [hs, h.codec_eq], hp, ?_⟩, hs, hb, fun hquiet hco => ?_⟩
  · rw [hs]
    exact Write.serves_onShared h.serves w channel
  · rw [Coherent] at hco ⊢
    rw [hb, show k'.world.stored codec = w.onContents (k.world.stored codec) from
      Write.stored_onShared hf w]
    exact ((w.contents_onCore h.plain).hearAll _).trans
      ((Write.hearAll_onContents_sub hquiet w _).trans (Write.sub_onContents hco w))

/-- A pod that keeps up will hear of a peer's write, which keeps it coherent. -/
theorem Tuned.peer_write {w : Write V} {sender : String} (h : c.Tuned codec channel i k)
    (hf : codec.Faithful) (ha : w.Audible codec) (hn : sender ≠ k.settings.instanceId)
    (hm : c'.members[i]? = c.members[i]?)
    (hc : c'.shared = w.onShared codec channel sender k.world) (hup : c'.shared.bus.KeepsUp) :
    c'.Tuned codec channel i { k with world := c'.shared } ∧
      backlog i { k with world := c'.shared } = backlog i k ++ [w.event codec sender] ∧
      (Coherent codec i k → Coherent codec i { k with world := c'.shared }) := by
  have hb : backlog i { k with world := c'.shared } = backlog i k ++ [w.event codec sender] := by
    rw [hc] at hup
    rw [backlog, hc]
    exact Write.backlog_onShared h.serves ha hn hup
  refine ⟨⟨h.has.of_eq hm, h.codec_eq, ⟨h.plain.unweighed, h.plain.takes_one⟩, ?_⟩, hb,
    fun hco => ?_⟩
  · rw [hc]
    exact Write.serves_onShared h.serves w channel
  · rw [Coherent] at hco ⊢
    rw [hb, Contents.hearAll_append, hc, Write.stored_onShared hf w]
    exact Write.hear_event_sub hf ha hco sender

end Cluster

/-! ## A concrete builder -/

theorem Codec.faithful_bool : (Codec.binary .bool).Faithful := fun b =>
  ⟨_, rfl, by cases b <;> rfl⟩

/-- A builder of pods for truth values, on the usual channel. -/
def boolBuilder (name : String) : Builder Bool :=
  { instanceId := name, codec := .binary .bool, writeThrough := true,
    factory := some (LocalCache.new Chance.standard .recency {}) }

theorem isStandard_boolBuilder (name : String) : (boolBuilder name).IsStandard := fun _ h =>
  ⟨Chance.standard, .recency, {}, (Option.some.inj h).symm⟩

end PodCache
