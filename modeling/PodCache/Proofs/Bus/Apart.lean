import PodCache.Proofs.Bus.Delivery

/-!
# Buses that differ in one synchronizer

Two buses may differ in one synchronizer only (`Bus.Apart`).  What the other synchronizers do is the
same on both, and the buses still differ in that synchronizer only.
-/

namespace PodCache.Bus

variable {κ : Type}

/-- Two buses are the same but for one synchronizer, which is `s` on the first and `s'` on the
second. -/
structure Apart (id : Nat) (s s' : Synchronizer κ) (b b' : Bus κ) : Prop where
  touches : Touches id b b'
  size : b'.synchronizers.size = b.synchronizers.size
  left : b.synchronizers[id]? = some s
  right : b'.synchronizers[id]? = some s'

variable {id j : Nat} {s s' : Synchronizer κ} {b b' : Bus κ}

theorem Apart.refl (h : b.synchronizers[id]? = some s) : Apart id s s b b :=
  ⟨.refl id b, rfl, h, h⟩

theorem Apart.trans {s'' : Synchronizer κ} {b'' : Bus κ} (h : Apart id s s' b b')
    (h' : Apart id s' s'' b' b'') : Apart id s s'' b b'' :=
  ⟨h.touches.trans h'.touches, h'.size.trans h.size, h.left, h'.right⟩

theorem apart_modify (h : b.synchronizers[id]? = some s) (f : Synchronizer κ → Synchronizer κ) :
    Apart id s (f s) b (b.modify id f) := by
  refine ⟨touches_modify b id f, Array.size_modify, h, ?_⟩
  rw [Bus.modify, Array.getElem?_modify, if_pos rfl, h, Option.map_some]

/-- Buses whose only difference is none are equal. -/
theorem Apart.eq (h : Apart id s s b b') : b' = b := by
  have hsame : b'.synchronizers = b.synchronizers := by
    refine Array.ext_getElem? fun j => ?_
    by_cases hj : j = id
    · rw [hj, h.left, h.right]
    · exact h.touches.others j hj
  obtain ⟨capacity, topics, synchronizers⟩ := b
  obtain ⟨capacity', topics', synchronizers'⟩ := b'
  obtain ⟨rfl, rfl, -⟩ := h.touches
  cases hsame
  rfl

/-! ## What others do -/

theorem Apart.modify (h : Apart id s s' b b') (hj : j ≠ id)
    (f : Synchronizer κ → Synchronizer κ) : Apart id s s' (b.modify j f) (b'.modify j f) := by
  refine ⟨⟨h.touches.capacity, h.touches.topics, fun k hk => ?_⟩, ?_, ?_, ?_⟩
  · rw [Bus.modify, Bus.modify, Array.getElem?_modify, Array.getElem?_modify,
      h.touches.others k hk]
  · rw [Bus.modify, Bus.modify, Array.size_modify, Array.size_modify, h.size]
  · exact ((touches_modify b j f).others id hj.symm).trans h.left
  · exact ((touches_modify b' j f).others id hj.symm).trans h.right

theorem Apart.subscribe (h : Apart id s s' b b') (hj : j ≠ id) :
    (b.subscribe j).1 = (b'.subscribe j).1 ∧
      Apart id s s' (b.subscribe j).2 (b'.subscribe j).2 := by
  unfold Bus.subscribe
  rw [h.touches.others j hj]
  cases b.synchronizers[j]? with
  | none => exact ⟨rfl, h⟩
  | some t =>
    dsimp only
    split_ifs
    · exact ⟨rfl, h⟩
    · rw [funext h.touches.topic]
      exact ⟨rfl, h.modify hj _⟩
    · exact ⟨rfl, h⟩

theorem Apart.publishRaw (h : Apart id s s' b b') (channel : String) (payload : Bytes) :
    Apart id s s' (b.publishRaw channel payload).2 (b'.publishRaw channel payload).2 := by
  refine ⟨⟨h.touches.capacity, ?_, h.touches.others⟩, h.size, h.left, h.right⟩
  unfold Bus.publishRaw
  dsimp only
  rw [h.touches.topics, h.touches.topic, h.touches.capacity]

theorem Apart.publish (h : Apart id s s' b b') (hj : j ≠ id) (e : Event) :
    (b.publish j e).1 = (b'.publish j e).1 ∧
      Apart id s s' (b.publish j e).2 (b'.publish j e).2 := by
  unfold Bus.publish
  rw [h.touches.others j hj]
  cases b.synchronizers[j]? with
  | none => exact ⟨rfl, h⟩
  | some t =>
    dsimp only
    split_ifs
    · exact ⟨rfl, h⟩
    · exact ⟨rfl, h.publishRaw _ _⟩

theorem Apart.take (h : Apart id s s' b b') (hj : j ≠ id) (count : Nat) :
    (b.take j count).1 = (b'.take j count).1 ∧
      Apart id s s' (b.take j count).2 (b'.take j count).2 := by
  unfold Bus.take
  rw [h.touches.others j hj]
  cases b.synchronizers[j]? with
  | none => exact ⟨rfl, h⟩
  | some t =>
    dsimp only
    cases t.listening with
    | idle => exact ⟨rfl, h⟩
    | ending => exact ⟨rfl, h.modify hj _⟩
    | active position =>
      dsimp only
      rw [h.touches.topic]
      exact ⟨rfl, h.modify hj _⟩

theorem Apart.synchronizer (h : Apart id s s' b b') (channel name : String) :
    Apart id s s' (b.synchronizer channel name).2 (b'.synchronizer channel name).2 := by
  have hlt : id < b.synchronizers.size := (Array.getElem?_eq_some_iff.1 h.left).1
  refine ⟨⟨h.touches.capacity, h.touches.topics, fun k hk => ?_⟩, ?_, ?_, ?_⟩
  · rw [Bus.synchronizer, Bus.synchronizer, Array.getElem?_push, Array.getElem?_push, h.size,
      h.touches.others k hk]
  · rw [Bus.synchronizer, Bus.synchronizer, Array.size_push, Array.size_push, h.size]
  · rw [Bus.synchronizer, Array.getElem?_push, if_neg hlt.ne, h.left]
  · rw [Bus.synchronizer, Array.getElem?_push, if_neg (by rw [h.size]; exact hlt.ne), h.right]

/-- A payload reaches as many, if the two synchronizers are on one channel and are both reached or
both not. -/
theorem Apart.reached (h : Apart id s s' b b') (hc : s'.channel = s.channel)
    (hr : s'.listening.isReached = s.listening.isReached) (channel : String) :
    b'.reached channel = b.reached channel := by
  let p := fun t : Synchronizer κ => t.channel == channel && t.listening.isReached
  have hmap : b'.synchronizers.map p = b.synchronizers.map p := by
    refine Array.ext_getElem? fun j => ?_
    rw [Array.getElem?_map, Array.getElem?_map]
    by_cases hj : j = id
    · rw [hj, h.left, h.right, Option.map_some, Option.map_some]
      simp only [p, hc, hr]
    · rw [h.touches.others j hj]
  have hcount : ∀ a : Array (Synchronizer κ), a.countP p = (a.map p).countP fun q => q := by
    intro a
    rw [Array.countP_map]
    rfl
  show b'.synchronizers.countP p = b.synchronizers.countP p
  rw [hcount, hcount, hmap]

end PodCache.Bus
