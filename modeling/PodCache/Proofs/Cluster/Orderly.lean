import PodCache.Proofs.Cluster.Coherence

/-!
# Orderly clusters

In an orderly run the pods share a codec and a channel, have identities of their own and keep up
with what waits for them.  Who may write what is left open (`Orderly`); if no pod that may write is
ever told a value by a peer (`Harmless`), then every pod is coherent in every state of the run
(`coherence_run`).
-/

namespace PodCache

variable {V : Type}

/-- A builder of pods of a codec, on a channel, without weigher and transform. -/
structure Builder.Joins (b : Builder V) (codec : Codec V) (channel : String) : Prop where
  codec_eq : b.codec = codec
  channel_eq : b.channel = channel
  untransformed : b.transform = none
  unweighed : b.weigher = none
  isStandard : b.IsStandard

namespace Cluster

/-- No pod has an identity. -/
def IsNew (c : Cluster V) (name : String) : Prop :=
  ∀ m ∈ c.members, ∀ pod ∈ m.pod, pod.settings.instanceId ≠ name

instance (c : Cluster V) (name : String) : Decidable (c.IsNew name) :=
  inferInstanceAs (Decidable (∀ m ∈ c.members, ∀ pod ∈ m.pod, pod.settings.instanceId ≠ name))

/-- The moves of pods that share a codec and a channel and keep up.  A pod `i` makes a write `w` if
`may i w`; a pod that may write writes through. -/
def Orderly (codec : Codec V) (channel : String) (may : Nat → Write V → Prop) (c : Cluster V)
    (m : Move V) : Prop :=
  (c.after m).shared.bus.KeepsUp ∧
    match m with
    | .build _ b => b.Joins codec channel ∧ c.IsNew b.instanceId ∧
      ((∃ w, may c.members.size w) → b.writeThrough = true)
    | .write i w => may i w
    | .get .. | .deliver .. | .maintain .. => True

/-- Peers can tell what was written, and no pod that may write is told a value by another. -/
structure Harmless (codec : Codec V) (may : Nat → Write V → Prop) : Prop where
  audible : ∀ i w, may i w → w.Audible codec
  apart : ∀ i j w w' sender, may i w → may j w' → i ≠ j → (w.event codec sender).action ≠ .set

/-- A pod of an orderly cluster. -/
structure Settled (c : Cluster V) (codec : Codec V) (channel : String)
    (may : Nat → Write V → Prop) (i : Nat) (k : Core V (Shared Unit)) : Prop where
  tuned : c.Tuned codec channel i k
  coherent : Coherent codec i k
  untransformed : k.settings.transform = none
  through : ∀ w, may i w → k.settings.writeThrough = true
  quiet : ∀ w, may i w → ∀ e ∈ backlog i k, e.action ≠ .set

/-- What holds in every state of an orderly run. -/
structure Coherence (c : Cluster V) (codec : Codec V) (channel : String)
    (may : Nat → Write V → Prop) : Prop where
  sound : c.Sound
  settled : ∀ i k, c.Has i k → c.Settled codec channel may i k
  distinct : ∀ i j k k', c.Has i k → c.Has j k' →
    k.settings.instanceId = k'.settings.instanceId → i = j

variable {c c' : Cluster V} {codec : Codec V} {channel : String} {may : Nat → Write V → Prop}
  {i j : Nat} {k k' : Core V (Shared Unit)} {m : Move V}

theorem Has.instanceId_ne {name : String} (h : c.Has i k) (hn : c.IsNew name) :
    k.settings.instanceId ≠ name := by
  obtain ⟨pod, hm, rfl, _⟩ := h
  exact hn _ (Array.mem_of_getElem? hm) pod rfl

theorem Settled.of_backlog (h : c.Settled codec channel may i k)
    (ht : c'.Tuned codec channel i k') (hs : k'.settings = k.settings)
    (hco : Coherent codec i k') (hb : ∀ e ∈ backlog i k', e ∈ backlog i k) :
    c'.Settled codec channel may i k' where
  tuned := ht
  coherent := hco
  untransformed := by rw [hs, h.untransformed]
  through w hw := by rw [hs, h.through w hw]
  quiet w hw e he := h.quiet w hw e (hb e he)

/-- The pod that moves, unless it is built just now. -/
theorem Coherence.mover (h : c.Coherence codec channel may) (hf : codec.Faithful)
    (ho : c.Orderly codec channel may m) (hi : c.Has (c.mover m) k) :
    ∃ k', (c.after m).Settled codec channel may (c.mover m) k' ∧ k'.settings = k.settings := by
  have hk := h.settled _ _ hi
  rcases m.write_or with ⟨i, w, rfl⟩ | hw
  · have hw : may i w := ho.2
    obtain ⟨k', -, -, ht, hs, hb, hco⟩ := hk.tuned.write hf (hk.through w hw) (.inl ho.1)
    refine ⟨k', hk.of_backlog ht hs (hco (hk.quiet w hw) hk.coherent) fun e he => ?_, hs⟩
    rwa [hb] at he
  · have hb (chance : Chance) (b : Builder V) (heq : m = .build chance b) : False := by
      subst heq
      exact lt_irrefl _ hi.lt
    obtain ⟨k', ht, hs, hco, hback⟩ := hk.tuned.coherent_after hk.coherent
      (.inl hk.untransformed) rfl (Move.isLocal_of_ne hw hb)
    exact ⟨k', hk.of_backlog ht hs hco fun e he => hback.mem he, hs⟩

/-- The pods that do not move. -/
theorem Coherence.other (h : c.Coherence codec channel may) (hf : codec.Faithful)
    (hm : Harmless codec may) (hc : c.Can m) (ho : c.Orderly codec channel may m)
    (hj : c.Has j k) (hne : j ≠ c.mover m) :
    (c.after m).Settled codec channel may j { k with world := (c.after m).shared } := by
  have hk := h.settled _ _ hj
  rcases m.write_or with ⟨i, w, rfl⟩ | hw
  · have hw : may i w := ho.2
    obtain ⟨ki, hi⟩ := h.sound.manned i hc
    have hki := h.settled _ _ hi
    have hn : ki.settings.instanceId ≠ k.settings.instanceId :=
      fun heq => hne (h.distinct _ _ _ _ hi hj heq).symm
    obtain ⟨k', hturn, hworld, -⟩ :=
      hki.tuned.write hf (hki.through w hw) (.inl ho.1)
    have hshared : (c.after (.write i w)).shared =
        w.onShared codec channel ki.settings.instanceId k.world := by
      rw [hturn.shared, hworld, hi.world, hj.world]
    obtain ⟨ht, hb, hco⟩ := hk.tuned.peer_write hf (hm.audible i w hw) hn
      (hturn.others j hne) hshared ho.1
    refine ⟨ht, hco hk.coherent, hk.untransformed, hk.through, fun w' hw' e he => ?_⟩
    rw [hb] at he
    rcases List.mem_append.1 he with he | he
    · exact hk.quiet w' hw' e he
    · rw [List.mem_singleton.1 he]
      exact hm.apart i j w w' _ hw hw' (Ne.symm hne)
  · have hu := (undisturbed_after h.sound hc hw).1
    obtain ⟨ht, hb, hco⟩ := hk.tuned.undisturbed hu hne
    refine hk.of_backlog ht rfl (hco hk.coherent) fun e he => ?_
    rwa [hb] at he

/-- A move leaves a sound cluster, and all places but the mover's as they were. -/
theorem Coherence.sound_after (h : c.Coherence codec channel may) (hf : codec.Faithful)
    (hc : c.Can m) (ho : c.Orderly codec channel may m) :
    (c.after m).Sound ∧ ∀ j, j ≠ c.mover m → (c.after m).members[j]? = c.members[j]? := by
  rcases m.write_or with ⟨i, w, rfl⟩ | hw
  · have hw : may i w := ho.2
    obtain ⟨k, hi⟩ := h.sound.manned i hc
    have hk := h.settled _ _ hi
    obtain ⟨k', hturn, hworld, -⟩ :=
      hk.tuned.write hf (hk.through w hw) (.inl ho.1)
    have hshared : k'.world = w.onShared codec channel k.settings.instanceId c.shared := by
      rw [hworld, hi.world]
    exact ⟨h.sound.of_turn hturn (by rw [hshared]; rfl) (by rw [hshared]; rfl), hturn.others⟩
  · obtain ⟨hu, hs⟩ := undisturbed_after h.sound hc hw
    exact ⟨hs, hu.others⟩

/-- Every pod after a move is settled; it was there before, or has just been built. -/
theorem Coherence.origin (h : c.Coherence codec channel may) (hf : codec.Faithful)
    (hm : Harmless codec may) (hc : c.Can m) (ho : c.Orderly codec channel may m)
    (hj : (c.after m).Has j k') :
    (c.after m).Settled codec channel may j k' ∧
      ((∃ k, c.Has j k ∧ k'.settings = k.settings) ∨
        ∃ chance b, m = .build chance b ∧ j = c.members.size ∧ k'.settings = b.settings) := by
  by_cases hmover : j = c.mover m
  · rcases m.build_or with ⟨chance, b, rfl⟩ | hb
    · obtain ⟨hjoin, -, hthrough⟩ := ho.2
      obtain ⟨k, ht, hs, hback, hco⟩ :=
        h.sound.tuned_build hc hjoin.unweighed hjoin.isStandard
      rw [hjoin.codec_eq] at ht hco
      rw [hjoin.channel_eq] at ht
      have hj' : j = c.members.size := hmover
      rw [hj'] at hj ⊢
      obtain rfl := ht.has.eq hj
      refine ⟨⟨ht, hco, by rw [hs]; exact hjoin.untransformed, fun w hw => ?_, fun w _ e he => ?_⟩,
        .inr ⟨chance, b, rfl, rfl, hs⟩⟩
      · rw [hs]
        exact hthrough ⟨w, hw⟩
      · rw [hback] at he
        exact absurd he List.not_mem_nil
    · obtain ⟨k, hk⟩ := h.sound.manned _ (mover_lt hc hb)
      obtain ⟨k'', hset, hs⟩ := h.mover hf ho hk
      rw [hmover] at hj ⊢
      obtain rfl := hset.tuned.has.eq hj
      exact ⟨hset, .inl ⟨k, hk, hs⟩⟩
  · have hsame := (h.sound_after hf hc ho).2 j hmover
    obtain ⟨pod, hp, rfl, hopen⟩ := hj
    have hk : c.Has j (pod.core c.shared) := ⟨pod, hsame.symm.trans hp, rfl, hopen⟩
    exact ⟨h.other hf hm hc ho hk hmover, .inl ⟨_, hk, rfl⟩⟩

theorem Coherence.after (h : c.Coherence codec channel may) (hf : codec.Faithful)
    (hm : Harmless codec may) (hc : c.Can m) (ho : c.Orderly codec channel may m) :
    (c.after m).Coherence codec channel may := by
  refine ⟨(h.sound_after hf hc ho).1, fun i k hi => (h.origin hf hm hc ho hi).1, ?_⟩
  intro i j k k' hi hj heq
  rcases (h.origin hf hm hc ho hi).2 with ⟨ki, hki, hsi⟩ | ⟨chance, b, rfl, rfl, hsi⟩
  · rcases (h.origin hf hm hc ho hj).2 with ⟨kj, hkj, hsj⟩ | ⟨chance, b, rfl, rfl, hsj⟩
    · exact h.distinct _ _ _ _ hki hkj (by rw [← hsi, ← hsj, heq])
    · exact absurd (by rw [← hsi, heq, hsj]; rfl) (hki.instanceId_ne ho.2.2.1)
  · rcases (h.origin hf hm hc ho hj).2 with ⟨kj, hkj, hsj⟩ | ⟨_, _, -, rfl, -⟩
    · exact absurd (by rw [← hsj, ← heq, hsi]; rfl) (hkj.instanceId_ne ho.2.2.1)
    · rfl

theorem coherence_start (contents : Std.TreeMap String Bytes) (capacity : Nat) :
    (start contents capacity).Coherence codec channel may :=
  ⟨sound_start contents capacity, fun _ _ h => absurd h.lt (Nat.not_lt_zero _),
    fun _ _ _ _ h => absurd h.lt (Nat.not_lt_zero _)⟩

/-- Every state of an orderly run is coherent, if it is harmless who may write what. -/
theorem coherence_run {contents : Std.TreeMap String Bytes} {capacity : Nat}
    {moves : List (Move V)} (hf : codec.Faithful) (hm : Harmless codec may)
    (run : Run (Orderly codec channel may) (start contents capacity) moves c) :
    c.Coherence codec channel may := by
  induction run with
  | nil => exact coherence_start contents capacity
  | snoc _ can allow ih => exact ih.after hf hm can allow

end Cluster

end PodCache
