import PodCache.Proofs.Pod.Steps

/-!
# The operations of pods

What each operation gives, and the core that it leaves, in terms of the answers of the services.
Writes of open pods are described for services that do what they are asked; a closed pod does
nothing.
-/

namespace PodCache

namespace Core

variable {V ω : Type}

/-- What the pod makes of the store's answer for a key. -/
def fetched (services : Services ω) (key : String) (k : Core V ω) : Option V :=
  match k.answer services (.storeGet key) with
  | .ok bytes => (k.settings.codec.decode bytes).toOption
  | .error _ => none

/-- A value, if there is one, has been offered to the local cache. -/
def keepAny (k : Core V ω) (key : String) : Option V → Core V ω
  | some value => k.keep key value
  | none => k

/-- The value that a peer's event puts into the local cache. -/
def adopted (k : Core V ω) (e : Event) : Option V :=
  match k.settings.transform with
  | some transform => transform k.transformed e
  | none => (k.settings.codec.decode e.payload).toOption

/-- The value of a peer's event has been decided on. -/
def considered (k : Core V ω) (e : Event) : Core V ω :=
  if k.settings.transform.isSome then k.saw e else k

/-- A peer's event has been carried out. -/
def applied (k : Core V ω) (e : Event) : Core V ω :=
  match e.action with
  | .set => if e.payload = [] then k else (k.considered e).keepAny e.key (k.adopted e)
  | .invalidate | .delete => k.forget e.key
  | .clear => k.forgetAll
  | .unknown _ => k

/-- Peers' events have been carried out in turn. -/
def appliedAll (k : Core V ω) (es : List Event) : Core V ω := es.foldl applied k

/-- A core differs from another in the local cache and in what the transform has seen at most. -/
structure Keeps (k k' : Core V ω) : Prop where
  settings : k'.settings = k.settings
  closed : k'.closed = k.closed
  world : k'.world = k.world

theorem Keeps.refl (k : Core V ω) : Keeps k k := ⟨rfl, rfl, rfl⟩

theorem Keeps.trans {k₁ k₂ k₃ : Core V ω} (h : Keeps k₁ k₂) (h' : Keeps k₂ k₃) : Keeps k₁ k₃ :=
  ⟨h'.settings.trans h.settings, h'.closed.trans h.closed, h'.world.trans h.world⟩

theorem keeps_keepAny (k : Core V ω) (key : String) (value : Option V) :
    Keeps k (k.keepAny key value) := by
  cases value <;> exact ⟨rfl, rfl, rfl⟩

theorem keeps_considered (k : Core V ω) (e : Event) : Keeps k (k.considered e) := by
  unfold considered
  split_ifs <;> exact ⟨rfl, rfl, rfl⟩

theorem keeps_applied (k : Core V ω) (e : Event) : Keeps k (k.applied e) := by
  unfold applied
  cases e.action with
  | set =>
    dsimp only
    split_ifs
    · exact .refl k
    · exact (keeps_considered k e).trans (keeps_keepAny _ _ _)
  | invalidate | delete | clear | unknown _ => exact ⟨rfl, rfl, rfl⟩

theorem keeps_appliedAll (k : Core V ω) (es : List Event) : Keeps k (k.appliedAll es) := by
  induction es generalizing k with
  | nil => exact .refl k
  | cons e es ih => exact (keeps_applied k e).trans (ih _)

end Core

namespace Pod

variable {V ω : Type} {services : Services ω} {k : Core V ω} {key : String} {value : V}

/-! ## Starting -/

theorem gives_start {taken : Bytes} (h : k.answer services .subscribe = .ok taken) :
    Gives (start services) k (.ok ()) (k.asked services .subscribe) := by
  refine (gives_requestWithin services .subscribe k).bind ?_
  rw [h]
  refine gives_state_bind fun s hs => ?_
  exact (gives_log _ _).bind (gives_pure _ _)

/-! ## Ending -/

/-- The synchronizer, the store and the local cache are closed, in this order. -/
theorem gives_teardown {first second : Bytes}
    (hs : (services.wait .synchronizerClose k.world).1 = .ok first)
    (hc : (services.wait .storeClose (k.awaited services .synchronizerClose).world).1 =
      .ok second) :
    Gives (teardown services) k (.ok ())
      ((k.awaited services .synchronizerClose).awaited services .storeClose).forgetForGood := by
  refine (gives_request services .synchronizerClose k).bind ?_
  rw [hs]
  refine (gives_request services .storeClose _).bind ?_
  rw [hc]
  refine (gives_localClose _).bind (gives_state_bind fun s _ => ?_)
  exact (gives_log _ _).bind (gives_pure _ _)

theorem gives_close {first second : Bytes} (hk : k.closed = false)
    (hs : (services.wait .synchronizerClose k.world).1 = .ok first)
    (hc : (services.wait .storeClose (k.awaited services .synchronizerClose).world).1 =
      .ok second) :
    Gives (close services) k (.ok ())
      ((k.shut.awaited services .synchronizerClose).awaited services
        .storeClose).forgetForGood := by
  refine gives_state_bind fun s hcore => ?_
  rw [if_neg (open_of_core hcore hk)]
  exact (gives_shut k).bind (gives_teardown hs hc)

/-! ## Lookups -/

theorem gives_fetch (services : Services ω) (key : String) (k : Core V ω) :
    Gives (fetch services key) k (k.fetched services key)
      ((k.asked services (.storeGet key)).keepAny key (k.fetched services key)) := by
  refine (gives_requestWithin services (.storeGet key) k).bind ?_
  unfold Core.fetched
  generalize k.answer services (.storeGet key) = answer
  split
  · exact (gives_count _ _).bind ((gives_log _ _).bind (gives_pure _ _))
  · exact (gives_count _ _).bind
      ((gives_log _ _).bind ((gives_report _ _).bind (gives_pure _ _)))
  · rename_i bytes
    refine (gives_count _ _).bind (gives_state_bind fun s hs => ?_)
    rw [show s.pod.settings.codec = k.settings.codec from congrArg (·.settings.codec) hs]
    dsimp only
    rcases k.settings.codec.decode bytes with e | value
    · exact (gives_log _ _).bind ((gives_report _ _).bind (gives_pure _ _))
    · exact (gives_localSet _ _ _).bind ((gives_log _ _).bind (gives_pure _ _))

theorem gives_get_of_hit (hk : k.closed = false) (hit : k.localCache.contents key = some value) :
    Gives (get services key) k (some value) (k.look key) := by
  refine gives_state_bind fun s hs => ?_
  rw [if_neg (open_of_core hs hk)]
  refine (gives_localGet key k).bind ?_
  rw [hit]
  exact (gives_count _ _).bind ((gives_log _ _).bind (gives_pure _ _))

theorem gives_get_of_miss (hk : k.closed = false) (miss : k.localCache.contents key = none) :
    Gives (get services key) k ((k.look key).fetched services key)
      (((k.look key).asked services (.storeGet key)).keepAny key
        ((k.look key).fetched services key)) := by
  refine gives_state_bind fun s hs => ?_
  rw [if_neg (open_of_core hs hk)]
  refine (gives_localGet key k).bind ?_
  rw [miss]
  exact (gives_count _ _).bind (gives_fetch services key _)

/-! ## Writes -/

theorem gives_publish (services : Services ω) (e : Event) (k : Core V ω) :
    Gives (publish services e) k () (k.asked services (.publish e)) := by
  refine (gives_requestWithin services (.publish e) k).bind ?_
  rcases k.answer services (.publish e) with e' | _
  · exact (gives_log _ _).bind (gives_report _ _)
  · exact gives_log _ _

/-- A set of a pod that writes through, to a store that takes the value. -/
theorem gives_setAnd {bytes taken : Bytes} (announcement : Announcement) (hk : k.closed = false)
    (hw : k.settings.writeThrough = true) (hv : k.settings.codec.encode value = .ok bytes)
    (hs : (k.keep key value).answer services (.storeSet key bytes) = .ok taken) :
    Gives (setAnd announcement services key value) k (.ok ())
      (((k.keep key value).asked services (.storeSet key bytes)).asked services
        (.publish (announcement.event key k.settings.instanceId bytes))) := by
  refine gives_state_bind fun s hcore => ?_
  obtain rfl := hcore
  dsimp only
  rw [if_neg (open_of_core rfl hk)]
  refine (gives_localSet key value _).bind ?_
  rw [show s.pod.settings.codec.encode value = .ok bytes from hv]
  dsimp only
  rw [if_pos (show s.pod.settings.writeThrough = true from hw)]
  refine (gives_requestWithin services _ _).bind ?_
  rw [hs]
  exact (gives_publish services _ _).bind (gives_pure _ _)

theorem gives_fail (entry : LogEntry) (e : Error) (k : Core V ω) :
    Gives (fail entry e) k (.error e) k :=
  (gives_log _ _).bind ((gives_report _ _).bind (gives_pure _ _))

theorem gives_setAnd_of_unencodable {e : Error} (announcement : Announcement)
    (hk : k.closed = false) (hv : k.settings.codec.encode value = .error e) :
    Gives (setAnd announcement services key value) k (.error e) (k.keep key value) := by
  refine gives_state_bind fun s hcore => ?_
  obtain rfl := hcore
  dsimp only
  rw [if_neg (open_of_core rfl hk)]
  refine (gives_localSet key value _).bind ?_
  rw [show s.pod.settings.codec.encode value = .error e from hv]
  exact gives_fail _ _ _

/-- A set of a pod that does not write through is told to the peers alone. -/
theorem gives_setAnd_of_unwritten {bytes : Bytes} (announcement : Announcement)
    (hk : k.closed = false) (hw : k.settings.writeThrough = false)
    (hv : k.settings.codec.encode value = .ok bytes) :
    Gives (setAnd announcement services key value) k (.ok ())
      ((k.keep key value).asked services
        (.publish (announcement.event key k.settings.instanceId bytes))) := by
  refine gives_state_bind fun s hcore => ?_
  obtain rfl := hcore
  dsimp only
  rw [if_neg (open_of_core rfl hk)]
  refine (gives_localSet key value _).bind ?_
  rw [show s.pod.settings.codec.encode value = .ok bytes from hv]
  dsimp only
  rw [show s.pod.settings.writeThrough = false from hw, if_neg Bool.false_ne_true]
  refine (gives_log _ _).bind ((gives_pure _ _).bind ?_)
  exact (gives_publish services _ _).bind (gives_pure _ _)

theorem gives_delete {taken : Bytes} (hk : k.closed = false)
    (hs : (k.forget key).answer services (.storeDelete key) = .ok taken) :
    Gives (delete services key) k (.ok ())
      (((k.forget key).asked services (.storeDelete key)).asked services
        (.publish (.delete key k.settings.instanceId))) := by
  refine gives_state_bind fun s hcore => ?_
  obtain rfl := hcore
  dsimp only
  rw [if_neg (open_of_core rfl hk)]
  refine (gives_localDelete key _).bind ((gives_requestWithin services _ _).bind ?_)
  rw [hs]
  exact (gives_publish services _ _).bind (gives_pure _ _)

theorem gives_clear {taken : Bytes} (hk : k.closed = false)
    (hs : k.forgetAll.answer services .storeClear = .ok taken) :
    Gives (clear services) k (.ok ())
      ((k.forgetAll.asked services .storeClear).asked services
        (.publish (.clear k.settings.instanceId))) := by
  refine gives_state_bind fun s hcore => ?_
  obtain rfl := hcore
  dsimp only
  rw [if_neg (open_of_core rfl hk)]
  refine (gives_localClear _).bind ((gives_requestWithin services _ _).bind ?_)
  rw [hs]
  exact (gives_publish services _ _).bind (gives_pure _ _)

/-! ## Events of peers -/

theorem gives_adopted (e : Event) (k : Core V ω) :
    Gives (adopted e) k (k.adopted e) (k.considered e) := by
  refine gives_state_bind fun s hcore => ?_
  obtain rfl := hcore
  unfold Core.adopted Core.considered
  cases ht : s.core.settings.transform with
  | none =>
    dsimp only
    rw [show s.pod.settings.transform = none from ht]
    dsimp only
    rcases hv : s.core.settings.codec.decode e.payload with e' | value
    · rw [show s.pod.settings.codec.decode e.payload = .error e' from hv]
      exact (gives_log _ _).bind ((gives_report _ _).bind (gives_pure _ _))
    · rw [show s.pod.settings.codec.decode e.payload = .ok value from hv]
      exact gives_pure _ _
  | some transform =>
    dsimp only
    rw [show s.pod.settings.transform = some transform from ht]
    rw [if_pos Option.isSome_some]
    refine (gives_transformEvent transform e _).bind ?_
    split_ifs
    · exact (gives_log _ _).bind (gives_pure _ _)
    · exact gives_pure _ _

theorem gives_apply (e : Event) (k : Core V ω) : Gives (apply e) k () (k.applied e) := by
  refine (gives_log _ k).bind ?_
  unfold Core.applied
  cases e.action with
  | set =>
    dsimp only
    by_cases hp : e.payload = []
    · rw [if_pos hp, if_neg (not_not.2 hp)]
      exact gives_pure _ _
    · rw [if_neg hp, if_pos hp]
      refine (gives_adopted e k).bind ?_
      rcases k.adopted e with _ | value
      · exact gives_pure _ _
      · exact gives_localSet _ _ _
  | invalidate | delete => exact (gives_localDelete _ _).bind (gives_count _ _)
  | clear => exact (gives_localClear _).bind (gives_count _ _)
  | unknown action => exact gives_log _ _

theorem gives_handleEvent (e : Event) (hk : k.closed = false) :
    Gives (handleEvent e) k () (k.applied e) := by
  refine gives_state_bind fun s hcore => ?_
  obtain rfl := hcore
  rw [if_neg (open_of_core rfl hk)]
  exact gives_apply e _

/-! ## Closed pods -/

theorem gives_close_of_closed (hk : k.closed = true) : Gives (close services) k (.ok ()) k := by
  refine gives_state_bind fun s hcore => ?_
  rw [if_pos (closed_of_core hcore hk)]
  exact gives_pure _ _

theorem gives_get_of_closed (hk : k.closed = true) : Gives (get services key) k none k := by
  refine gives_state_bind fun s hcore => ?_
  rw [if_pos (closed_of_core hcore hk)]
  exact gives_pure _ _

theorem gives_setAnd_of_closed (announcement : Announcement) (hk : k.closed = true) :
    Gives (setAnd announcement services key value) k (.error .closed) k := by
  refine gives_state_bind fun s hcore => ?_
  dsimp only
  rw [if_pos (closed_of_core hcore hk)]
  exact gives_pure _ _

theorem gives_delete_of_closed (hk : k.closed = true) :
    Gives (delete services key) k (.error .closed) k := by
  refine gives_state_bind fun s hcore => ?_
  dsimp only
  rw [if_pos (closed_of_core hcore hk)]
  exact gives_pure _ _

theorem gives_clear_of_closed (hk : k.closed = true) :
    Gives (clear services) k (.error .closed) k := by
  refine gives_state_bind fun s hcore => ?_
  dsimp only
  rw [if_pos (closed_of_core hcore hk)]
  exact gives_pure _ _

theorem gives_handleEvent_of_closed (e : Event) (hk : k.closed = true) :
    Gives (handleEvent e) k () k := by
  refine gives_state_bind fun s hcore => ?_
  rw [if_pos (closed_of_core hcore hk)]
  exact gives_pure _ _

end Pod

end PodCache
