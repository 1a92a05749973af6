import PodCache.Proofs.Cluster.Coherence

/-!
# Transparency of the only writer

A pod that writes through, has no weigher and is the only one to write behaves like a plain map,
whatever its peers are like and whether it keeps up or not (`get_of_sole_writer`): all that it hears
of is its own, so that its local cache never has anything but what the store has.
-/

namespace PodCache

variable {V : Type}

/-- A builder of pods of a codec that write through and have no weigher. -/
structure Builder.WritesPlainly (b : Builder V) (codec : Codec V) : Prop where
  codec_eq : b.codec = codec
  unweighed : b.weigher = none
  writeThrough : b.writeThrough = true
  isStandard : b.IsStandard

/-- What a plain map makes of a move. -/
def Move.onMap (map : Contents V) : Move V → Contents V
  | .write _ w => w.onContents map
  | .build .. | .get .. | .deliver .. | .maintain .. => map

theorem Move.onMap_of_ne {m : Move V} (hw : ∀ i w, m ≠ .write i w) (map : Contents V) :
    m.onMap map = map := by
  cases m with
  | write i w => exact absurd rfl (hw i w)
  | build | get | deliver | maintain => rfl

namespace Cluster

/-- The moves of a cluster in which one pod writes; the others may be of any kind, and only read. -/
def Sole (codec : Codec V) (writer : Nat) (c : Cluster V) : Move V → Prop
  | .build _ b => c.members.size = writer → b.WritesPlainly codec
  | .write i _ => i = writer
  | .get .. | .deliver .. | .maintain .. => True

/-- What holds of the writer. -/
structure Alone (c : Cluster V) (codec : Codec V) (writer : Nat) (k : Core V (Shared Unit)) :
    Prop where
  through : k.settings.writeThrough = true
  caughtUp : backlog writer k = []
  coherent : Coherent codec writer k
  tuned : ∃ channel, c.Tuned codec channel writer k

/-- What holds in every state of a cluster with one writer. -/
structure Transparent (c : Cluster V) (codec : Codec V) (writer : Nat) (map : Contents V) :
    Prop where
  sound : c.Sound
  stored : c.shared.stored codec = map
  alone : ∀ k, c.Has writer k → c.Alone codec writer k

variable {c : Cluster V} {codec : Codec V} {writer : Nat} {map : Contents V} {m : Move V}
  {k : Core V (Shared Unit)}

/-- The writer, when it has just moved locally. -/
theorem Transparent.local_move (h : c.Transparent codec writer map) (hl : m.IsLocal)
    (hm : c.mover m = writer) (hlt : writer < c.members.size) (hk : (c.after m).Has writer k) :
    (c.after m).Alone codec writer k := by
  obtain ⟨k₀, hk₀⟩ := h.sound.manned writer hlt
  obtain ⟨hthrough, hback, hco, channel, ht⟩ := h.alone k₀ hk₀
  obtain ⟨k', ht', hset, hco', hback'⟩ := ht.coherent_after hco (.inr hback) hm hl
  obtain rfl := ht'.has.eq hk
  rw [hback, List.suffix_nil] at hback'
  exact ⟨by rw [hset, hthrough], hback', hco', channel, ht'⟩

/-- The writer, when it has just been built. -/
theorem Transparent.build {chance : Chance} {b : Builder V}
    (h : c.Transparent codec c.members.size map) (hc : c.Can (.build chance b))
    (hb : b.WritesPlainly codec) (hk : (c.after (.build chance b)).Has c.members.size k) :
    (c.after (.build chance b)).Alone codec c.members.size k := by
  obtain ⟨k', ht, hset, hback, hco⟩ := h.sound.tuned_build hc hb.unweighed hb.isStandard
  rw [hb.codec_eq] at ht hco
  obtain rfl := ht.has.eq hk
  exact ⟨by rw [hset]; exact hb.writeThrough, hback, hco, b.channel, ht⟩

/-- The writer, when another pod has just moved. -/
theorem Transparent.other (h : c.Transparent codec writer map) (hc : c.Can m)
    (hw : ∀ i w, m ≠ .write i w) (hm : writer ≠ c.mover m) (hk : (c.after m).Has writer k) :
    (c.after m).Alone codec writer k := by
  have hu := (undisturbed_after h.sound hc hw).1
  obtain ⟨pod, hp, rfl, hopen⟩ := hk
  have hk₀ : c.Has writer (pod.core c.shared) :=
    ⟨pod, (hu.others writer hm).symm.trans hp, rfl, hopen⟩
  obtain ⟨hthrough, hback, hco, channel, ht⟩ := h.alone _ hk₀
  obtain ⟨ht', hback', hco'⟩ := ht.undisturbed hu hm
  exact ⟨hthrough, hback'.trans hback, hco' hco, channel, ht'⟩

/-- A write of the writer. -/
theorem Transparent.after_write {w : Write V} (h : c.Transparent codec writer map)
    (hf : codec.Faithful) (hc : c.Can (.write writer w)) :
    (c.after (.write writer w)).Transparent codec writer (w.onContents map) := by
  obtain ⟨k, hi⟩ := h.sound.manned writer hc
  obtain ⟨hthrough, hback, hco, channel, ht⟩ := h.alone k hi
  obtain ⟨k', hturn, hworld, ht', hset, hback', hco'⟩ :=
    ht.write hf hthrough (.inr hback)
  rw [hi.world] at hworld
  refine ⟨h.sound.of_turn hturn (by rw [hworld]; rfl) (by rw [hworld]; rfl), ?_,
    fun k'' hk'' => ?_⟩
  · rw [hturn.shared, hworld, Write.stored_onShared hf, h.stored]
  · obtain rfl := ht'.has.eq hk''
    refine ⟨by rw [hset, hthrough], by rw [hback', hback], hco' ?_ hco, channel, ht'⟩
    rw [hback]
    exact fun e he => absurd he List.not_mem_nil

theorem Transparent.after (h : c.Transparent codec writer map) (hf : codec.Faithful)
    (hc : c.Can m) (hs : c.Sole codec writer m) :
    (c.after m).Transparent codec writer (m.onMap map) := by
  rcases m.write_or with ⟨i, w, rfl⟩ | hw
  · obtain rfl : i = writer := hs
    exact h.after_write hf hc
  obtain ⟨hu, hsound⟩ := undisturbed_after h.sound hc hw
  refine ⟨hsound, ?_, fun k hk => ?_⟩
  · rw [Move.onMap_of_ne hw, ← h.stored]
    funext key
    rw [Shared.stored, Shared.stored, hu.contents]
  · by_cases hm : c.mover m = writer
    · rcases m.build_or with ⟨chance, b, rfl⟩ | hb
      · obtain rfl : c.members.size = writer := hm
        exact h.build hc (hs rfl) hk
      · exact h.local_move (Move.isLocal_of_ne hw hb) hm (hm ▸ mover_lt hc hb) hk
    · exact h.other hc hw (Ne.symm hm) hk

theorem transparent_withCapacity (codec : Codec V) (writer capacity : Nat) :
    (withCapacity capacity).Transparent codec writer .empty :=
  ⟨sound_start ∅ capacity, rfl, fun _ h => absurd h.lt (Nat.not_lt_zero _)⟩

theorem transparent_run {capacity : Nat} {moves : List (Move V)} (hf : codec.Faithful)
    (run : Run (Sole codec writer) (withCapacity capacity) moves c) :
    c.Transparent codec writer (moves.foldl Move.onMap .empty) := by
  induction run with
  | nil => exact transparent_withCapacity codec writer capacity
  | snoc _ can allow ih =>
    rw [List.foldl_append]
    exact ih.after hf can allow

/-- In every state of a run, a lookup of the only writer gives what a plain map would give. -/
theorem get_of_sole_writer {capacity : Nat} {moves : List (Move V)} (hf : codec.Faithful)
    (run : Run (Sole codec writer) (withCapacity capacity) moves c)
    (hw : writer < c.members.size) (key : String) :
    (c.act writer fun services => Pod.get services key).1.map Prod.fst =
      some (moves.foldl Move.onMap .empty key) := by
  have h := transparent_run hf run
  obtain ⟨k, hk⟩ := h.sound.manned writer hw
  obtain ⟨-, hback, hco, channel, ht⟩ := h.alone k hk
  rw [ht.get_eq_stored hco hback key, h.stored]

/-- A writer that has heard its own set. -/
theorem get_of_sole_writer_after_own_event :
    ∃ (moves : List (Move Bool)) (c : Cluster Bool),
      Run (Sole (.binary .bool) 0) (withCapacity 4) moves c ∧ 0 < c.members.size ∧
      (c.act 0 fun services => Pod.get services "k").1.map Prod.fst =
        some (moves.foldl Move.onMap .empty "k") ∧
      moves.foldl Move.onMap .empty "k" = some true := by
  have built := Run.nil.snoc (m := .build Chance.standard (boolBuilder "a")) (by decide +kernel)
    (show Sole (.binary .bool) 0 (withCapacity 4) _ from
      fun _ => ⟨rfl, rfl, rfl, isStandard_boolBuilder "a"⟩)
  have written := built.snoc (m := .write 0 (.set .value "k" true)) (by decide +kernel) rfl
  have heard := written.snoc (m := .deliver 0 1) (by decide +kernel) trivial
  exact ⟨_, _, heard, by decide +kernel,
    get_of_sole_writer Codec.faithful_bool heard (by decide +kernel) "k", rfl⟩

end Cluster

end PodCache
