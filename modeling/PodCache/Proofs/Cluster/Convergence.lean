import PodCache.Proofs.Cluster.Orderly

/-!
# Convergence

What orderly runs come to.  If every set is announced by an invalidation, any number of pods may
write: a pod with nothing left to hear has nothing but what the store has
(`resident_of_invalidating`).  If values are announced, one pod may write: a pod that hears all that
waits for it has nothing but what the store has, and a pod with nothing left to hear reads exactly
what the store has (`reads_of_propagating`).
-/

namespace PodCache

open Std (TreeMap)

variable {V : Type}

/-- A write that the peers are told of without a value. -/
def Write.Invalidates : Write V → Prop
  | .set announcement _ _ => announcement = .invalidation
  | .delete _ | .clear => True

/-- Every value of a store can be read. -/
def Codec.Reads (codec : Codec V) (contents : TreeMap String Bytes) : Prop :=
  ∀ (key : String) (bytes : Bytes), contents[key]? = some bytes →
    ∃ value, codec.decode bytes = .ok value

theorem Shared.stored_eq_some {codec : Codec V} {s : Shared Unit} {key : String} {value : V} :
    s.stored codec key = some value ↔
      ∃ bytes, s.store.contents[key]? = some bytes ∧ codec.decode bytes = .ok value := by
  rw [Shared.stored, Option.bind_eq_some_iff]
  refine exists_congr fun bytes => and_congr_right fun _ => ?_
  rcases codec.decode bytes with e | v
  · simp [Except.toOption]
  · simp [Except.toOption]

theorem Codec.Faithful.reads_onStore {codec : Codec V} {contents : TreeMap String Bytes}
    (hf : codec.Faithful) (h : codec.Reads contents) (w : Write V) :
    codec.Reads (w.onStore codec contents) := by
  intro key bytes hb
  cases w with
  | set announcement k value =>
    rw [Write.onStore, TreeMap.getElem?_insert] at hb
    split_ifs at hb
    · cases hb
      exact ⟨value, hf.decode value⟩
    · exact h key bytes hb
  | delete k =>
    rw [Write.onStore, TreeMap.getElem?_erase] at hb
    split_ifs at hb
    exact h key bytes hb
  | clear =>
    rw [Write.onStore, TreeMap.getElem?_emptyc] at hb
    cases hb

namespace Cluster

variable {c : Cluster V} {codec : Codec V} {channel : String} {may : Nat → Write V → Prop}
  {i : Nat} {k : Core V (Shared Unit)} {pod : Pod V} {contents : TreeMap String Bytes}
  {capacity : Nat} {moves : List (Move V)}

theorem Sound.has (hs : c.Sound) (hp : c.pod? i = some pod) : c.Has i (pod.core c.shared) := by
  obtain ⟨m, hm, hpod⟩ := Option.bind_eq_some_iff.1 hp
  obtain ⟨k, pod', hm', rfl, hopen⟩ := hs.manned i (Array.getElem?_eq_some_iff.1 hm).1
  obtain rfl : m = { pod := some pod' } := Option.some.inj (hm.symm.trans hm')
  obtain rfl : pod' = pod := Option.some.inj hpod
  exact ⟨pod', hm', rfl, hopen⟩

/-! ## A run of two pods -/

/-- Two pods on a store with one value. -/
def pair : Cluster Bool :=
  ((start {("k", [0])} 4).after (.build Chance.standard (boolBuilder "a"))).after
    (.build Chance.standard (boolBuilder "b"))

/-- The second pod has read the value before the first has set another. -/
def overwritten (announcement : Pod.Announcement) : Cluster Bool :=
  (pair.after (.get 1 "k")).after (.write 0 (.set announcement "k" true))

theorem joins_boolBuilder (name : String) :
    (boolBuilder name).Joins (.binary .bool) defaultChannel :=
  ⟨rfl, rfl, rfl, rfl, isStandard_boolBuilder name⟩

theorem run_overwritten (may : Nat → Write Bool → Prop) (announcement : Pod.Announcement)
    (h : may 0 (.set announcement "k" true)) :
    ∃ moves, Run (Orderly (.binary .bool) defaultChannel may) (start {("k", [0])} 4) moves
      (overwritten announcement) := by
  have first := Run.nil.snoc (m := .build Chance.standard (boolBuilder "a")) (by decide +kernel)
    (show Orderly (.binary .bool) defaultChannel may (start {("k", [0])} 4) _ from
      ⟨by decide +kernel, joins_boolBuilder "a", by decide +kernel, fun _ => rfl⟩)
  have second : Run _ _ _ pair := first.snoc (by decide +kernel)
    ⟨by decide +kernel, joins_boolBuilder "b", by decide +kernel, fun _ => rfl⟩
  have read := second.snoc (m := .get 1 "k") (by decide +kernel) ⟨by decide +kernel, trivial⟩
  refine ⟨_, read.snoc ?_ ⟨?_, h⟩⟩
  · show 0 < (pair.after (.get 1 "k")).members.size
    decide +kernel
  · cases announcement <;> decide +kernel

/-! ## Several writers -/

theorem harmless_invalidates (codec : Codec V) : Harmless codec fun _ w => w.Invalidates := by
  refine ⟨fun _ w hw => ?_, fun _ _ w _ sender hw _ _ => ?_⟩
  · cases w with
    | set announcement key value =>
      obtain rfl : announcement = .invalidation := hw
      trivial
    | delete | clear => trivial
  · cases w with
    | set announcement key value =>
      obtain rfl : announcement = .invalidation := hw
      exact fun h => by cases h
    | delete key => exact fun h => by cases h
    | clear => exact fun h => by cases h

/-- Any number of pods write through, and announce what they set by invalidations.  Whenever nothing
waits for a pod, every entry of its local cache is what the store has for the key. -/
theorem resident_of_invalidating (hf : codec.Faithful)
    (run : Run (Orderly codec channel fun _ w => w.Invalidates) (start contents capacity) moves c)
    (hp : c.pod? i = some pod) (hi : c.pending i = 0) {key : String} {value : V}
    (hit : (pod.localCache.get key).1 = some value) :
    ∃ bytes, c.shared.store.contents[key]? = some bytes ∧ codec.decode bytes = .ok value := by
  have h := coherence_run hf (harmless_invalidates codec) run
  have hhas := h.sound.has hp
  have hsub := (h.settled _ _ hhas).coherent.sub (backlog_eq_nil hhas hi)
  rw [LocalCache.get_fst] at hit
  exact Shared.stored_eq_some.1 (hsub key value hit)

theorem resident_of_invalidating_after_overwrite :
    ∃ (moves : List (Move Bool)) (c : Cluster Bool) (pod : Pod Bool),
      Run (Orderly (.binary .bool) defaultChannel fun _ w => w.Invalidates)
        (start {("k", [0])} 4) moves c ∧
      c.pod? 1 = some pod ∧ c.pending 1 = 0 ∧ (pod.localCache.get "k").1 = some true ∧
      ∃ bytes, c.shared.store.contents["k"]? = some bytes ∧
        (Codec.binary .bool).decode bytes = .ok true := by
  obtain ⟨moves, run⟩ := run_overwritten (fun _ w => w.Invalidates) .invalidation rfl
  have heard := run.snoc (m := .deliver 1 1) (by decide +kernel) ⟨by decide +kernel, trivial⟩
  have reread := heard.snoc (m := .get 1 "k") (by decide +kernel) ⟨by decide +kernel, trivial⟩
  have hit : ((((overwritten .invalidation).after (.deliver 1 1)).after (.get 1 "k")).pod? 1).map
      (fun pod => (pod.localCache.get "k").1) = some (some true) := by decide +kernel
  obtain ⟨pod, hp, hit⟩ := Option.map_eq_some_iff.1 hit
  exact ⟨_, _, pod, reread, hp, by decide +kernel, hit,
    resident_of_invalidating Codec.faithful_bool reread hp (by decide +kernel) hit⟩

/-! ## One writer -/

theorem harmless_of_one (codec : Codec V) (writer : Nat)
    (hne : ∀ value bytes, codec.encode value = .ok bytes → bytes ≠ []) (hf : codec.Faithful) :
    Harmless codec fun i _ => i = writer := by
  refine ⟨fun _ w _ => ?_, fun i j _ _ _ hi hj hij => absurd (hi.trans hj.symm) hij⟩
  cases w with
  | set announcement key value =>
    cases announcement with
    | value => exact hne value _ (hf.encode value)
    | invalidation => trivial
  | delete | clear => trivial

theorem reads_run (hf : codec.Faithful) (hm : Harmless codec may)
    (run : Run (Orderly codec channel may) (start contents capacity) moves c)
    (hr : codec.Reads contents) : codec.Reads c.shared.store.contents := by
  induction run with
  | nil => exact hr
  | @snoc moves c m run can allow ih =>
    have h := coherence_run hf hm run
    rcases m.write_or with ⟨i, w, rfl⟩ | hw
    · obtain ⟨k, hi⟩ := h.sound.manned i can
      have hk := h.settled _ _ hi
      obtain ⟨k', hturn, hworld, -⟩ :=
        hk.tuned.write hf (hk.through w allow.2) (.inl allow.1)
      rw [hturn.shared, hworld, hi.world]
      exact hf.reads_onStore ih w
    · have hu := (undisturbed_after h.sound can hw).1
      rw [hu.contents]
      exact ih

/-- One pod writes, and announces values or invalidations as it likes.  When a pod has heard
all that waits for it, every entry of its local cache is what the store has for the key; and while
nothing waits for a pod, its lookups give what the store has, and nothing for other keys. -/
theorem reads_of_propagating {writer : Nat} (hf : codec.Faithful)
    (hne : ∀ value bytes, codec.encode value = .ok bytes → bytes ≠ [])
    (hr : codec.Reads contents)
    (run : Run (Orderly codec channel fun i _ => i = writer) (start contents capacity) moves c)
    (hp : c.pod? i = some pod) :
    (∃ pod', (c.after (.deliver i (c.pending i))).pod? i = some pod' ∧
      ∀ key value, (pod'.localCache.get key).1 = some value →
        ∃ bytes, c.shared.store.contents[key]? = some bytes ∧ codec.decode bytes = .ok value) ∧
    (c.pending i = 0 → ∀ key,
      match c.shared.store.contents[key]? with
      | some bytes => ∃ value, codec.decode bytes = .ok value ∧
          (c.act i fun services => Pod.get services key).1.map Prod.fst = some (some value)
      | none => (c.act i fun services => Pod.get services key).1.map Prod.fst = some none) := by
  have hm := harmless_of_one codec writer hne hf
  have h := coherence_run hf hm run
  have hhas := h.sound.has hp
  have hk := h.settled _ _ hhas
  refine ⟨?_, fun hi key => ?_⟩
  · obtain ⟨k', ht, -, hco, -, hall⟩ :=
      hk.tuned.coherent_deliver hk.coherent (.inl hk.untransformed) (c.pending i)
    have hsub := hco.sub (hall (le_refl _))
    obtain ⟨pod', hm', rfl, -⟩ := ht.has
    have hsame := (undisturbed_after h.sound (m := .deliver i (c.pending i)) hhas.lt
      fun _ _ h => by cases h).1.contents
    refine ⟨pod', by rw [pod?, hm']; rfl, fun key value hit => ?_⟩
    rw [LocalCache.get_fst] at hit
    rw [← hsame]
    exact Shared.stored_eq_some.1 (hsub key value hit)
  · have hget := hk.tuned.get_eq_stored hk.coherent (backlog_eq_nil hhas hi) key
    cases hb : c.shared.store.contents[key]? with
    | none =>
      rw [Shared.stored, hb] at hget
      exact hget
    | some bytes =>
      obtain ⟨value, hv⟩ := reads_run hf hm run hr key bytes hb
      rw [Shared.stored_eq_some.2 ⟨bytes, hb, hv⟩] at hget
      exact ⟨value, hv, hget⟩

theorem reads_of_propagating_after_overwrite :
    ∃ (moves : List (Move Bool)) (c : Cluster Bool) (pod : Pod Bool),
      Run (Orderly (.binary .bool) defaultChannel fun i _ => i = 0)
        (start {("k", [0])} 4) moves c ∧
      c.pod? 1 = some pod ∧ c.pending 1 = 0 ∧
      (∃ pod', (c.after (.deliver 1 (c.pending 1))).pod? 1 = some pod' ∧
        ∀ key value, (pod'.localCache.get key).1 = some value →
          ∃ bytes, c.shared.store.contents[key]? = some bytes ∧
            (Codec.binary .bool).decode bytes = .ok value) ∧
      ∀ key,
        match c.shared.store.contents[key]? with
        | some bytes => ∃ value, (Codec.binary .bool).decode bytes = .ok value ∧
            (c.act 1 fun services => Pod.get services key).1.map Prod.fst = some (some value)
        | none => (c.act 1 fun services => Pod.get services key).1.map Prod.fst = some none := by
  obtain ⟨moves, run⟩ := run_overwritten (fun i _ => i = 0) .value rfl
  have heard := run.snoc (m := .deliver 1 1) (by decide +kernel) ⟨by decide +kernel, trivial⟩
  have there : (((overwritten .value).after (.deliver 1 1)).pod? 1).isSome := by decide +kernel
  obtain ⟨pod, hp⟩ := Option.isSome_iff_exists.1 there
  have hne (b : Bool) (bytes : Bytes) (h : (Codec.binary .bool).encode b = .ok bytes) :
      bytes ≠ [] := by
    cases b <;> cases h <;> decide
  have hr : (Codec.binary .bool).Reads {("k", [0])} := by
    show Codec.Reads _ (Write.onStore (.binary .bool) ∅ (.set .value "k" false))
    refine Codec.faithful_bool.reads_onStore (fun key bytes hb => ?_) _
    rw [TreeMap.getElem?_emptyc] at hb
    cases hb
  obtain ⟨hreplay, hreads⟩ := reads_of_propagating Codec.faithful_bool hne hr heard hp
  exact ⟨_, _, pod, heard, hp, by decide +kernel, hreplay, hreads (by decide +kernel)⟩

end Cluster

end PodCache
