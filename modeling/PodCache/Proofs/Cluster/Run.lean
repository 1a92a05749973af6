import PodCache.Proofs.Cluster.Views

/-!
# Runs of clusters

A run is a sequence of moves of a cluster: pods are built, look keys up and write, payloads are
delivered to them, and their local caches do what waits.  A move that is no write leaves every pod
but one as it was, and the services as that pod sees them (`undisturbed_after`).
-/

namespace PodCache

variable {V : Type}

/-- Something that happens in a cluster. -/
inductive Move (V : Type) where
  /-- A pod is built, as the next member. -/
  | build (chance : Chance) (b : Builder V)
  /-- A pod looks a key up. -/
  | get (i : Nat) (key : String)
  /-- A pod writes. -/
  | write (i : Nat) (w : Write V)
  /-- A pod is delivered at most `count` of the payloads that wait for it. -/
  | deliver (i count : Nat)
  /-- What waits in the local cache of a pod is applied. -/
  | maintain (i : Nat)

/-- Whether a move makes a pod do no more than look a key up, hear or tidy up. -/
def Move.IsLocal : Move V → Prop
  | .get .. | .deliver .. | .maintain .. => True
  | .build .. | .write .. => False

theorem Move.write_or (m : Move V) : (∃ i w, m = .write i w) ∨ ∀ i w, m ≠ .write i w := by
  cases m with
  | write i w => exact .inl ⟨i, w, rfl⟩
  | build | get | deliver | maintain => exact .inr fun _ _ h => by cases h

theorem Move.build_or (m : Move V) :
    (∃ chance b, m = .build chance b) ∨ ∀ chance b, m ≠ .build chance b := by
  cases m with
  | build chance b => exact .inl ⟨chance, b, rfl⟩
  | write | get | deliver | maintain => exact .inr fun _ _ h => by cases h

theorem Move.isLocal_of_ne {m : Move V} (hw : ∀ i w, m ≠ .write i w)
    (hb : ∀ chance b, m ≠ .build chance b) : m.IsLocal := by
  cases m with
  | build chance b => exact absurd rfl (hb chance b)
  | write i w => exact absurd rfl (hw i w)
  | get | deliver | maintain => trivial

namespace Cluster

/-- A cluster without pods, whose store may have values. -/
def start (contents : Std.TreeMap String Bytes) (capacity : Nat) : Cluster V :=
  { shared := { store := { contents }, bus := .withCapacity capacity } }

/-- A cluster after a move. -/
def after (c : Cluster V) : Move V → Cluster V
  | .build chance b => (c.build chance b b.instanceId b.channel Faults.none).2
  | .get i key => (c.act i fun services => Pod.get services key).2
  | .write i w => (c.act i fun services => w.perform services).2
  | .deliver i count => (c.deliver i count).2
  | .maintain i => c.maintain i

/-- Whether a move can be made: a pod can be built, or is there. -/
def Can (c : Cluster V) : Move V → Prop
  | .build chance b =>
    (c.build chance b b.instanceId b.channel Faults.none).1.result = .ok ()
  | .get i _ | .write i _ | .deliver i _ | .maintain i => i < c.members.size

instance (c : Cluster V) (m : Move V) : Decidable (c.Can m) :=
  match m with
  | .build chance b => inferInstanceAs (Decidable
      ((c.build chance b b.instanceId b.channel Faults.none).1.result = .ok ()))
  | .get i _ | .write i _ | .deliver i _ | .maintain i =>
    inferInstanceAs (Decidable (i < c.members.size))

/-- The moves of a run, and where they lead.  Which moves are allowed may depend on the cluster. -/
inductive Run (allowed : Cluster V → Move V → Prop) (c₀ : Cluster V) :
    List (Move V) → Cluster V → Prop
  | nil : Run allowed c₀ [] c₀
  | snoc {moves : List (Move V)} {c : Cluster V} {m : Move V} (run : Run allowed c₀ moves c)
    (can : c.Can m) (allow : allowed c m) : Run allowed c₀ (moves ++ [m]) (c.after m)

/-- The number of the pod that moves. -/
def mover (c : Cluster V) : Move V → Nat
  | .build _ _ => c.members.size
  | .get i _ | .write i _ | .deliver i _ | .maintain i => i

theorem mover_lt {c : Cluster V} {m : Move V} (hc : c.Can m)
    (hb : ∀ chance b, m ≠ .build chance b) : c.mover m < c.members.size := by
  cases m with
  | build chance b => exact absurd rfl (hb chance b)
  | get | write | deliver | maintain => exact hc

/-! ## Clusters that hold together -/

/-- Every member has an open pod, a handle and a synchronizer, and nothing else has. -/
structure Sound (c : Cluster V) : Prop where
  handles : c.shared.store.closed.size = c.members.size + 1
  synchronizers : c.shared.bus.synchronizers.size = c.members.size
  manned : ∀ i, i < c.members.size → ∃ k, c.Has i k

theorem sound_start (contents : Std.TreeMap String Bytes) (capacity : Nat) :
    (start contents capacity : Cluster V).Sound :=
  ⟨rfl, rfl, fun i hi => absurd hi (Nat.not_lt_zero i)⟩

/-- One pod may have changed, and the services as that pod sees them; the store has not. -/
structure Undisturbed (i : Nat) (c c' : Cluster V) : Prop where
  contents : c'.shared.store.contents = c.shared.store.contents
  others : ∀ j, j ≠ i → c'.members[j]? = c.members[j]?
  sameFor : ∀ j, j ≠ i → j < c.members.size → Shared.SameFor j c.shared c'.shared

variable {c c' : Cluster V} {i j : Nat} {k k' : Core V (Shared Unit)} {m : Move V}

theorem Sound.of_turn (hs : c.Sound) (ht : Turn i k c c')
    (hh : k.world.store.closed = c.shared.store.closed)
    (hb : k.world.bus.synchronizers.size = c.shared.bus.synchronizers.size) : c'.Sound := by
  refine ⟨?_, ?_, fun j hj => ?_⟩
  · rw [ht.shared, hh, hs.handles, ht.size]
  · rw [ht.shared, hb, hs.synchronizers, ht.size]
  · by_cases hji : j = i
    · exact ⟨k, hji ▸ ht.has⟩
    · rw [ht.size] at hj
      obtain ⟨k', hk'⟩ := hs.manned j hj
      exact ⟨_, hk'.of_eq (ht.others j hji)⟩

/-! ## Moves that are no writes -/

/-- A turn has changed one synchronizer at most, and not the store. -/
structure Spares (i : Nat) (s s' : Shared Unit) : Prop where
  store : s'.store = s.store
  bus : Bus.Touches i s.bus s'.bus
  size : s'.bus.synchronizers.size = s.bus.synchronizers.size
  retains : Bus.Retains s.bus s'.bus

theorem Spares.refl (i : Nat) (s : Shared Unit) : Spares i s s :=
  ⟨rfl, .refl i s.bus, rfl, .refl s.bus⟩

theorem undisturbed_of_turn (ht : Turn i k c c') (hs : Spares i c.shared k.world) :
    Undisturbed i c c' := by
  have h : Spares i c.shared c'.shared := by rwa [ht.shared]
  exact ⟨by rw [h.store], ht.others, fun j hj _ =>
    ⟨by rw [h.store], by rw [h.store], i, hj.symm, h.bus⟩⟩

theorem acts_get (h : c.Holds i k) (key : String) :
    ∃ k', Core.Keeps k k' ∧ Acts i k' c (c.after (.get i key)) := by
  cases hk : k.closed with
  | true =>
    have hg : Pod.Gives (Pod.get (services i Faults.none) key) k none k :=
      Pod.gives_get_of_closed hk
    exact ⟨k, .refl k, (acts_act h (fun services => Pod.get services key) hg).2⟩
  | false =>
    have hl : Core.Keeps k (k.look key) := ⟨rfl, rfl, rfl⟩
    cases hit : k.localCache.contents key with
    | some value => exact ⟨_, hl, (turn_get_of_hit (h.has hk) hit).2.acts⟩
    | none =>
      exact ⟨_, hl.trans (Core.keeps_keepAny _ _ _), (turn_get_of_miss (h.has hk) hit).2.acts⟩

/-- Open or closed, a pod that moves locally leaves the store alone, and the bus but for its own
synchronizer. -/
theorem acts_after (h : c.Holds i k) (hm : c.mover m = i) (hl : m.IsLocal) :
    ∃ k', Acts i k' c (c.after m) ∧ k'.settings = k.settings ∧ k'.closed = k.closed ∧
      Spares i c.shared k'.world := by
  cases m with
  | build | write => exact hl.elim
  | get j key =>
    obtain rfl : j = i := hm
    obtain ⟨k', hk, ha⟩ := acts_get h key
    refine ⟨k', ha, hk.settings, hk.closed, ?_⟩
    rw [hk.world, h.world]
    exact .refl j c.shared
  | deliver j count =>
    obtain rfl : j = i := hm
    obtain ⟨k', hk, ha⟩ := acts_deliver h count
    refine ⟨k', ha, hk.settings, hk.closed, ?_⟩
    rw [hk.world, h.world]
    exact ⟨rfl, Bus.touches_take _ _ _, Bus.size_take _ _ _, Bus.retains_take _ _ _⟩
  | maintain j =>
    obtain rfl : j = i := hm
    refine ⟨_, acts_maintain h, rfl, rfl, ?_⟩
    dsimp only
    rw [h.world]
    exact .refl j c.shared

theorem undisturbed_build (hs : c.Sound) {chance : Chance} {b : Builder V}
    (hc : c.Can (.build chance b)) :
    Undisturbed c.members.size c (c.after (.build chance b)) ∧
      (c.after (.build chance b)).Sound := by
  obtain ⟨hsize, hothers, localCache, -, hhas⟩ := has_build rfl hc hs.synchronizers
  have hw : (c.after (.build chance b)).shared = c.shared.welcome b.channel b.instanceId :=
    hhas.world.symm
  refine ⟨⟨?_, hothers, fun j _ hlt => ?_⟩, ?_, ?_, fun j hj => ?_⟩
  · rw [hw]
    rfl
  · rw [hw]
    rw [← hs.synchronizers] at hlt
    exact Shared.sameFor_welcome _ _ _ hlt (by rw [hs.handles, hs.synchronizers])
  · rw [hw, Shared.size_closed_welcome, hs.handles]
    exact congrArg (· + 1) hsize.symm
  · rw [hw, Shared.size_synchronizers_welcome, hs.synchronizers]
    exact hsize.symm
  · by_cases hn : j = c.members.size
    · subst hn
      exact ⟨_, hhas⟩
    · have hlt : j < c.members.size := by
        have : j < c.members.size + 1 := hsize ▸ hj
        omega
      obtain ⟨k, hk⟩ := hs.manned j hlt
      exact ⟨_, hk.of_eq (hothers j hn)⟩

/-- A move that is no write concerns one pod only. -/
theorem undisturbed_after (hs : c.Sound) (hc : c.Can m) (hw : ∀ i w, m ≠ .write i w) :
    Undisturbed (c.mover m) c (c.after m) ∧ (c.after m).Sound := by
  rcases m.build_or with ⟨chance, b, rfl⟩ | hb
  · exact undisturbed_build hs hc
  · obtain ⟨k, hk⟩ := hs.manned _ (mover_lt hc hb)
    obtain ⟨k', ha, -, hclosed, hsp⟩ := acts_after hk.holds rfl (Move.isLocal_of_ne hw hb)
    have ht := ha.turn (hclosed.trans hk.isOpen)
    exact ⟨undisturbed_of_turn ht hsp, hs.of_turn ht (by rw [hsp.store]) hsp.size⟩

end Cluster

end PodCache
