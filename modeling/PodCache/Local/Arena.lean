/-!
# Arenas

An arena keeps items in slots and hands out an index for each.  The slot of an item that is taken
out is used again, but in another generation: an index names the generation its item was put in,
and finds nothing in the slot once another item is there.  An index is *live* while its item is
there.
-/

namespace PodCache

/-- The place of an item in an arena. -/
structure Arena.Index where
  slot : Nat
  generation : Nat
  deriving DecidableEq, Repr

/-- Items in slots. -/
structure Arena (α : Type) where
  /-- The slots, with the generation of the item in each that is in use. -/
  slots : Array (Option (Nat × α))
  /-- The slots that are not in use, the one that was left last first. -/
  vacant : List Nat
  /-- The generation of the next item. -/
  generation : Nat
  nodup_vacant : vacant.Nodup
  slots_vacant : ∀ slot ∈ vacant, slots[slot]? = some none

namespace Arena

variable {α : Type} {a b : Arena α} {i j : Index} {item : α}

/-- The arena without items. -/
def empty : Arena α := ⟨#[], [], 0, List.nodup_nil, by simp⟩

/-- The item at an index, if it is live. -/
def get? (a : Arena α) (i : Index) : Option α :=
  match a.slots[i.slot]? with
  | some (some (generation, item)) => if generation = i.generation then some item else none
  | _ => none

theorem get?_eq_some_iff :
    a.get? i = some item ↔ a.slots[i.slot]? = some (some (i.generation, item)) := by
  unfold get?
  split
  · rename_i generation item' hs
    simp only [hs, Option.some.injEq, Prod.mk.injEq]
    split
    · simp_all
    · simp_all
  · rename_i hs
    constructor
    · exact nofun
    · exact fun h => absurd h (hs _ _)

theorem lt_size_of_get? (h : a.get? i = some item) : i.slot < a.slots.size := by
  rw [get?_eq_some_iff, Array.getElem?_eq_some_iff] at h
  exact h.1

theorem notMem_vacant_of_get? (h : a.get? i = some item) : i.slot ∉ a.vacant := by
  intro hv
  rw [get?_eq_some_iff, a.slots_vacant _ hv] at h
  cases h

/-! ## Requests -/

/-- Puts something else into a slot that is in use. -/
def write (a : Arena α) (slot : Nat) (content : Option (Nat × α)) (h : slot ∉ a.vacant) : Arena α :=
  { a with
    slots := a.slots.setIfInBounds slot content
    slots_vacant := fun other ho => by
      have hne : slot ≠ other := fun hs => h (hs ▸ ho)
      rw [Array.getElem?_setIfInBounds_ne hne, a.slots_vacant other ho] }

/-- Gives up a slot that has been emptied. -/
def leave (a : Arena α) (slot : Nat) (h : slot ∉ a.vacant) (hs : a.slots[slot]? = some none) :
    Arena α :=
  { a with
    vacant := slot :: a.vacant
    generation := a.generation + 1
    nodup_vacant := List.nodup_cons.2 ⟨h, a.nodup_vacant⟩
    slots_vacant := fun other ho => (List.mem_cons.1 ho).elim (fun e => e ▸ hs)
      (a.slots_vacant other) }

/-- Takes the slot that was left last for a new item. -/
def reuse (a : Arena α) {slot : Nat} {rest : List Nat} (h : a.vacant = slot :: rest) : Arena α :=
  { a with
    vacant := rest
    nodup_vacant := (List.nodup_cons.1 (h ▸ a.nodup_vacant)).2
    slots_vacant := fun other ho => a.slots_vacant other (h ▸ List.mem_cons_of_mem slot ho) }

theorem notMem_vacant_reuse {slot : Nat} {rest : List Nat} (h : a.vacant = slot :: rest) :
    slot ∉ (a.reuse h).vacant :=
  (List.nodup_cons.1 (h ▸ a.nodup_vacant : (slot :: rest).Nodup)).1

/-- Puts an item in. -/
def insert (a : Arena α) (item : α) : Index × Arena α :=
  match h : a.vacant with
  | [] =>
    (⟨a.slots.size, a.generation⟩,
      { a with
        slots := a.slots.push (some (a.generation, item))
        slots_vacant := by simp [h] })
  | slot :: _ =>
    (⟨slot, a.generation⟩,
      (a.reuse h).write slot (some (a.generation, item)) (notMem_vacant_reuse h))

/-- Changes the item at an index.  There is no result when the index is not live. -/
def modify? (a : Arena α) (i : Index) (f : α → α) : Option (Arena α) :=
  match h : a.get? i with
  | none => none
  | some item => some (a.write i.slot (some (i.generation, f item)) (notMem_vacant_of_get? h))

/-- Takes the item at an index out, if it is live. -/
def remove? (a : Arena α) (i : Index) : Option (α × Arena α) :=
  match h : a.get? i with
  | none => none
  | some item =>
    have hv := notMem_vacant_of_get? h
    some (item, (a.write i.slot none hv).leave i.slot hv
      (Array.getElem?_setIfInBounds_self_of_lt (lt_size_of_get? h)))

/-- Takes all items out. -/
def clear (a : Arena α) : Arena α := ⟨#[], [], a.generation + 1, List.nodup_nil, by simp⟩

/-! ## What is at an index -/

@[simp] theorem get?_empty (i : Index) : (empty : Arena α).get? i = none := rfl

@[simp] theorem get?_clear (a : Arena α) (i : Index) : a.clear.get? i = none := rfl

/-- Nothing else is in a slot that is in use. -/
theorem get?_eq_none_of_slot_eq (h : a.get? i = some item) (hs : j.slot = i.slot) (hne : j ≠ i) :
    a.get? j = none := by
  refine Option.eq_none_iff_forall_ne_some.2 fun other hj => hne ?_
  rw [get?_eq_some_iff] at h hj
  rw [hs, h] at hj
  cases i
  cases j
  simp_all

theorem get?_write (h : i.slot ∉ a.vacant) (hlt : i.slot < a.slots.size)
    (hfree : ∀ j, j.slot = i.slot → j ≠ i → a.get? j = none) (j : Index) :
    (a.write i.slot (some (i.generation, item)) h).get? j =
      if j = i then some item else a.get? j := by
  by_cases hs : j.slot = i.slot
  · have hself : (a.write i.slot (some (i.generation, item)) h).slots[j.slot]? =
        some (some (i.generation, item)) := by
      rw [hs]
      exact Array.getElem?_setIfInBounds_self_of_lt hlt
    by_cases hj : j = i
    · rw [if_pos hj, get?_eq_some_iff, hself, hj]
    · have hgen : i.generation ≠ j.generation := fun hg => hj (by cases i; cases j; simp_all)
      rw [if_neg hj, hfree j hs hj, get?, hself]
      exact if_neg hgen
  · have hne : j ≠ i := fun hj => hs (hj ▸ rfl)
    rw [if_neg hne, get?, get?, write, Array.getElem?_setIfInBounds_ne (Ne.symm hs)]

theorem get?_eq_none_of_vacant (h : i.slot ∈ a.vacant) : a.get? i = none := by
  rw [get?, a.slots_vacant _ h]

/-- The index of a new item was not live before. -/
theorem get?_insert_fst (a : Arena α) (item : α) : a.get? (a.insert item).1 = none := by
  unfold insert
  split
  · simp [get?]
  · rename_i slot rest hv
    exact get?_eq_none_of_vacant (i := ⟨slot, a.generation⟩) (by simp [hv])

theorem get?_insert (a : Arena α) (item : α) (j : Index) :
    (a.insert item).2.get? j = if j = (a.insert item).1 then some item else a.get? j := by
  unfold insert
  split
  · by_cases hs : j.slot = a.slots.size
    · by_cases hg : j.generation = a.generation
      · have hj : j = ⟨a.slots.size, a.generation⟩ := by cases j; simp_all
        simp [hj, get?]
      · have hj : j ≠ ⟨a.slots.size, a.generation⟩ := fun hj => hg (hj ▸ rfl)
        simp [hj, get?, hs, Ne.symm hg]
    · have hj : j ≠ ⟨a.slots.size, a.generation⟩ := fun hj => hs (hj ▸ rfl)
      simp [hj, get?, Array.getElem?_push, hs]
  · rename_i slot rest hv
    have hslot : slot ∈ a.vacant := by simp [hv]
    have hlt : slot < a.slots.size := by
      have hn := a.slots_vacant slot hslot
      rw [Array.getElem?_eq_some_iff] at hn
      exact hn.1
    exact get?_write (a := a.reuse hv) (i := ⟨slot, a.generation⟩) (notMem_vacant_reuse hv) hlt
      (fun j hj _ => get?_eq_none_of_vacant (a := a) (hj ▸ hslot)) j

/-- The item at a live index can be changed, and the others stay. -/
theorem exists_modify? (h : a.get? i = some item) (f : α → α) :
    ∃ b, a.modify? i f = some b ∧
      ∀ j, b.get? j = if j = i then some (f item) else a.get? j := by
  unfold modify?
  split
  · rename_i hn
    rw [hn] at h
    cases h
  · rename_i item' hi
    obtain rfl : item' = item := Option.some.inj (hi.symm.trans h)
    exact ⟨_, rfl, get?_write _ (lt_size_of_get? h) fun j => get?_eq_none_of_slot_eq h⟩

/-- The item at a live index can be taken out, and the others stay. -/
theorem exists_remove? (h : a.get? i = some item) :
    ∃ b, a.remove? i = some (item, b) ∧ ∀ j, b.get? j = if j = i then none else a.get? j := by
  unfold remove?
  split
  · rename_i hn
    rw [hn] at h
    cases h
  · rename_i item' hi
    obtain rfl : item' = item := Option.some.inj (hi.symm.trans h)
    refine ⟨_, rfl, fun j => ?_⟩
    by_cases hs : j.slot = i.slot
    · have hself := Array.getElem?_setIfInBounds_self_of_lt (a := none) (lt_size_of_get? h)
      have hleft : (if j = i then none else a.get? j) = none := by
        split
        · rfl
        · rename_i hj
          exact get?_eq_none_of_slot_eq h hs hj
      rw [hleft]
      simp only [get?, leave, write, hs, hself]
    · have hj : j ≠ i := fun hj => hs (hj ▸ rfl)
      simp only [if_neg hj, get?, leave, write, Array.getElem?_setIfInBounds_ne (Ne.symm hs)]

end Arena

end PodCache
