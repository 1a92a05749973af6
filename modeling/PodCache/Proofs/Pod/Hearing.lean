import PodCache.Proofs.Pod.Operations

/-!
# What events do to a map

The events of peers act on any map from keys to values as they act on a local cache that never
evicts (`Contents.hear`).  For each key, a sequence of events either leaves the value alone or
decides it whatever it was before (`hearAll_apply`); this is what makes it harmless to read ahead
of the events.
-/

namespace PodCache

namespace Contents

variable {V : Type}

/-- A map after an event. -/
def hear (codec : Codec V) (m : Contents V) (e : Event) : Contents V :=
  match e.action with
  | .set =>
    if e.payload = [] then m
    else
      match codec.decode e.payload with
      | .ok value => m.put e.key value
      | .error _ => m
  | .invalidate | .delete => m.erase e.key
  | .clear => empty
  | .unknown _ => m

/-- A map after events in turn. -/
def hearAll (codec : Codec V) (m : Contents V) (es : List Event) : Contents V :=
  es.foldl (hear codec) m

variable {codec : Codec V} {m m' : Contents V}

theorem hearAll_nil (codec : Codec V) (m : Contents V) : hearAll codec m [] = m := rfl

theorem hearAll_append (codec : Codec V) (m : Contents V) (es es' : List Event) :
    hearAll codec m (es ++ es') = hearAll codec (hearAll codec m es) es' :=
  List.foldl_append

theorem hear_set (m : Contents V) {key sender : String} {bytes : Bytes} {value : V}
    (hb : bytes ≠ []) (hv : codec.decode bytes = .ok value) :
    m.hear codec (.set key sender bytes) = m.put key value := by
  simp [hear, Event.set, Event.payload, hb, hv]

/-! ## A smaller map stays smaller -/

theorem Sub.hear (h : m.Sub m') (e : Event) : (hear codec m e).Sub (Contents.hear codec m' e) := by
  unfold Contents.hear
  cases e.action with
  | set =>
    dsimp only
    split_ifs
    · exact h
    · rcases codec.decode e.payload with _ | value
      · exact h
      · exact h.put e.key value
  | invalidate | delete => exact h.erase e.key
  | clear => exact .refl _
  | unknown _ => exact h

theorem Sub.hearAll (h : m.Sub m') (es : List Event) :
    (hearAll codec m es).Sub (Contents.hearAll codec m' es) := by
  induction es generalizing m m' with
  | nil => exact h
  | cons e es ih => exact ih (h.hear e)

/-! ## The effect on one key -/

theorem hear_apply (codec : Codec V) (e : Event) (key : String) :
    (∀ m, hear codec m e key = m key) ∨ ∃ r, ∀ m, hear codec m e key = r := by
  unfold hear
  cases e.action with
  | set =>
    dsimp only
    split_ifs
    · exact .inl fun _ => rfl
    · rcases codec.decode e.payload with _ | value
      · exact .inl fun _ => rfl
      · by_cases hk : e.key = key
        · exact .inr ⟨some value, fun m => by rw [← hk]; exact m.put_self _ _⟩
        · exact .inl fun m => m.put_of_ne value hk
  | invalidate | delete =>
    by_cases hk : e.key = key
    · exact .inr ⟨none, fun m => by rw [← hk]; exact m.erase_self _⟩
    · exact .inl fun m => m.erase_of_ne hk
  | clear => exact .inr ⟨none, fun _ => rfl⟩
  | unknown _ => exact .inl fun _ => rfl

theorem hearAll_apply (codec : Codec V) (es : List Event) (key : String) :
    (∀ m, hearAll codec m es key = m key) ∨ ∃ r, ∀ m, hearAll codec m es key = r := by
  induction es with
  | nil => exact .inl fun _ => rfl
  | cons e es ih =>
    rcases ih with ih | ⟨r, hr⟩
    · rcases hear_apply codec e key with he | ⟨r, hr⟩
      · exact .inl fun m => (ih _).trans (he m)
      · exact .inr ⟨r, fun m => (ih _).trans (hr m)⟩
    · exact .inr ⟨r, fun m => hr _⟩

/-- An entry that agrees with a map may be added ahead of events that lead below that map. -/
theorem hearAll_put_sub {es : List Event} {key : String} {value : V}
    (h : (hearAll codec m es).Sub m') (hv : m' key = some value) :
    (hearAll codec (m.put key value) es).Sub m' := by
  intro k v hit
  rcases hearAll_apply codec es k with hsame | ⟨r, hr⟩
  · rw [hsame] at hit
    by_cases hk : key = k
    · rw [← hk, put_self] at hit
      rwa [← hk, hv]
    · rw [put_of_ne _ _ hk, ← hsame m] at hit
      exact h k v hit
  · rw [hr] at hit
    exact h k v ((hr m).trans hit)

end Contents

/-! ## Events in the local cache -/

namespace Core

variable {V ω : Type} {k : Core V ω}

@[simp] theorem contents_look (k : Core V ω) (key : String) :
    (k.look key).localCache.contents = k.localCache.contents :=
  LocalCache.contents_get k.localCache key

@[simp] theorem contents_forget (k : Core V ω) (key : String) :
    (k.forget key).localCache.contents = k.localCache.contents.erase key :=
  LocalCache.contents_delete k.localCache key

@[simp] theorem contents_forgetAll (k : Core V ω) :
    k.forgetAll.localCache.contents = Contents.empty :=
  LocalCache.contents_clear k.localCache

/-- A pod without a weigher, whose local cache takes entries of cost one. -/
structure Plain (k : Core V ω) : Prop where
  unweighed : k.settings.weigher = none
  takes_one : k.localCache.takes 1

theorem Plain.cost (h : k.Plain) (key : String) (value : V) : k.cost key value = 1 := by
  rw [Core.cost, h.unweighed]

theorem Plain.contents_keep (h : k.Plain) (key : String) (value : V) :
    (k.keep key value).localCache.contents.Sub (k.localCache.contents.put key value) := by
  rw [keep, h.cost]
  exact LocalCache.contents_set h.takes_one key value

theorem Plain.look (h : k.Plain) (key : String) : (k.look key).Plain :=
  ⟨h.unweighed, (LocalCache.takes_get k.localCache key 1).2 h.takes_one⟩

theorem Plain.keep (h : k.Plain) (key : String) (value : V) : (k.keep key value).Plain :=
  ⟨h.unweighed, (LocalCache.takes_set k.localCache key value _ 1).2 h.takes_one⟩

theorem Plain.forget (h : k.Plain) (key : String) : (k.forget key).Plain :=
  ⟨h.unweighed, (LocalCache.takes_delete k.localCache key 1).2 h.takes_one⟩

theorem Plain.forgetAll (h : k.Plain) : k.forgetAll.Plain :=
  ⟨h.unweighed, (LocalCache.takes_clear k.localCache 1).2 h.takes_one⟩

theorem Plain.applied (h : k.Plain) (e : Event) : (k.applied e).Plain := by
  unfold Core.applied
  cases e.action with
  | set =>
    dsimp only
    split_ifs
    · exact h
    · have hc : (k.considered e).Plain := by
        unfold considered
        split_ifs <;> exact ⟨h.unweighed, h.takes_one⟩
      cases k.adopted e with
      | none => exact hc
      | some value => exact hc.keep e.key value
  | invalidate | delete => exact h.forget e.key
  | clear => exact h.forgetAll
  | unknown _ => exact h

/-- Without a transform, an event does to the local cache what it does to any map, but for entries
that are evicted. -/
theorem Plain.contents_applied (h : k.Plain) (ht : k.settings.transform = none) (e : Event) :
    (k.applied e).localCache.contents.Sub
      (k.localCache.contents.hear k.settings.codec e) := by
  unfold Core.applied Contents.hear
  cases e.action with
  | set =>
    dsimp only
    split_ifs
    · exact .refl _
    · have hc : k.considered e = k := if_neg (by simp [ht])
      rw [hc, adopted, ht]
      dsimp only
      rcases k.settings.codec.decode e.payload with _ | value
      · exact .refl _
      · exact h.contents_keep e.key value
  | invalidate | delete => exact .of_eq (k.contents_forget e.key)
  | clear => exact .of_eq k.contents_forgetAll
  | unknown _ => exact .refl _

theorem Plain.appliedAll (h : k.Plain) (es : List Event) : (k.appliedAll es).Plain := by
  induction es generalizing k with
  | nil => exact h
  | cons e es ih => exact ih (h.applied e)

theorem Plain.contents_appliedAll (h : k.Plain) (ht : k.settings.transform = none)
    (es : List Event) :
    (k.appliedAll es).localCache.contents.Sub
      (k.localCache.contents.hearAll k.settings.codec es) := by
  induction es generalizing k with
  | nil => exact .refl _
  | cons e es ih =>
    have hs := (k.keeps_applied e).settings
    have rest := ih (h.applied e) (by rw [hs, ht])
    rw [hs] at rest
    exact rest.trans ((h.contents_applied ht e).hearAll es)

end Core

end PodCache
