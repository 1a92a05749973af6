import PodCache.Local.RecencyChain

/-!
# Lists of entries

The entries of a recency list in the order of their last use, the latest one first.  No key occurs
twice among them, so the entry for a key is one entry, and the others are those without the key.
-/

namespace PodCache.RecencyList

variable {α : Type} {es pre post : List (Entry α)} {e d : Entry α} {key : String}

/-- The entries for other keys. -/
def without (es : List (Entry α)) (key : String) : List (Entry α) :=
  es.filter fun e => e.key ≠ key

/-- The entry for a key. -/
def entryFor (es : List (Entry α)) (key : String) : Option (Entry α) :=
  es.find? fun e => e.key = key

/-- The sum of the costs of entries. -/
def costSum : List (Entry α) → Nat
  | [] => 0
  | e :: es => e.cost + costSum es

/-! ## Entries without a key -/

theorem without_of_not_mem (h : key ∉ es.map Entry.key) : without es key = es := by
  refine List.filter_eq_self.2 fun e he => ?_
  have hne : e.key ≠ key := fun hk => h (hk ▸ List.mem_map_of_mem he)
  simpa using hne

theorem mem_without : e ∈ without es key ↔ e ∈ es ∧ e.key ≠ key := by
  simp [without]

theorem without_without (es : List (Entry α)) (key : String) :
    without (without es key) key = without es key :=
  List.filter_eq_self.2 fun _ he => decide_eq_true (mem_without.1 he).2

theorem without_append (es es' : List (Entry α)) (key : String) :
    without (es ++ es') key = without es key ++ without es' key := List.filter_append _ _

theorem nodup_keys_split :
    ((pre ++ e :: post).map Entry.key).Nodup ↔
      e.key ∉ (pre ++ post).map Entry.key ∧ ((pre ++ post).map Entry.key).Nodup := by
  rw [(List.perm_middle.map Entry.key).nodup_iff, List.map_cons, List.nodup_cons]

theorem key_ne_of_split (h : ((pre ++ e :: post).map Entry.key).Nodup) (hd : d ∈ pre ++ post) :
    d.key ≠ e.key := fun hk => (nodup_keys_split.1 h).1 (hk ▸ List.mem_map_of_mem hd)

theorem without_split (h : ((pre ++ e :: post).map Entry.key).Nodup) :
    without (pre ++ e :: post) e.key = pre ++ post := by
  have hn := (nodup_keys_split.1 h).1
  rw [List.map_append, List.mem_append, not_or] at hn
  have hcons : without (e :: post) e.key = without post e.key := by simp [without]
  rw [without_append, hcons, without_of_not_mem hn.1, without_of_not_mem hn.2]

theorem perm_cons_without (h : (es.map Entry.key).Nodup) (he : e ∈ es) :
    (e :: without es e.key).Perm es := by
  obtain ⟨pre, post, rfl⟩ := List.append_of_mem he
  rw [without_split h]
  exact List.perm_middle.symm

/-! ## The entry for a key -/

theorem entryFor_split (h : ((pre ++ e :: post).map Entry.key).Nodup) :
    entryFor (pre ++ e :: post) e.key = some e := by
  have hpre : pre.find? (fun d => d.key = e.key) = none := by
    rw [List.find?_eq_none]
    intro d hd
    simpa using key_ne_of_split h (List.mem_append_left post hd)
  rw [entryFor, List.find?_append, hpre]
  simp

theorem entryFor_eq_none_iff : entryFor es key = none ↔ key ∉ es.map Entry.key := by
  simp [entryFor]

theorem entryFor_eq_some_iff (h : (es.map Entry.key).Nodup) :
    entryFor es key = some e ↔ e ∈ es ∧ e.key = key := by
  constructor
  · intro he
    exact ⟨List.mem_of_find?_eq_some he, by simpa using List.find?_some he⟩
  · rintro ⟨he, rfl⟩
    obtain ⟨pre, post, rfl⟩ := List.append_of_mem he
    exact entryFor_split h

theorem entryFor_cons (e : Entry α) (es : List (Entry α)) (k : String) :
    entryFor (e :: es) k = if e.key = k then some e else entryFor es k := by
  unfold entryFor
  split
  · rename_i hk
    exact List.find?_cons_of_pos (by simpa using hk)
  · rename_i hk
    exact List.find?_cons_of_neg (by simpa using hk)

theorem entryFor_without (es : List (Entry α)) (key k : String) :
    entryFor (without es key) k = if key = k then none else entryFor es k := by
  unfold entryFor without
  rw [List.find?_filter]
  split
  · rename_i hk
    rw [List.find?_eq_none]
    intro e _
    simp [hk]
  · rename_i hk
    congr 1
    funext e
    by_cases hek : e.key = k
    · simp [hek, Ne.symm hk]
    · simp [hek]

/-- The entry for a key and those for other keys are all entries. -/
theorem entryFor_append_without_perm (h : (es.map Entry.key).Nodup) (key : String) :
    ((entryFor es key).toList ++ without es key).Perm es := by
  cases he : entryFor es key with
  | none => rw [without_of_not_mem (entryFor_eq_none_iff.1 he), Option.toList_none, List.nil_append]
  | some e =>
    obtain ⟨hmem, rfl⟩ := (entryFor_eq_some_iff h).1 he
    exact perm_cons_without h hmem

/-! ## Costs -/

@[simp] theorem costSum_nil : costSum ([] : List (Entry α)) = 0 := rfl

@[simp] theorem costSum_cons (e : Entry α) (es : List (Entry α)) :
    costSum (e :: es) = e.cost + costSum es := rfl

@[simp] theorem costSum_append (es es' : List (Entry α)) :
    costSum (es ++ es') = costSum es + costSum es' := by
  induction es with
  | nil => simp
  | cons e es ih => simp [ih, Nat.add_assoc]

theorem costSum_perm {es es' : List (Entry α)} (h : es.Perm es') : costSum es = costSum es' := by
  induction h with
  | nil => rfl
  | cons e _ ih => rw [costSum_cons, costSum_cons, ih]
  | swap e e' es => simp only [costSum_cons, Nat.add_left_comm]
  | trans _ _ ih ih' => exact ih.trans ih'

theorem costSum_split (pre : List (Entry α)) (e : Entry α) (post : List (Entry α)) :
    costSum (pre ++ e :: post) = e.cost + costSum (pre ++ post) := by
  rw [costSum_append, costSum_cons, costSum_append]
  omega

end PodCache.RecencyList
