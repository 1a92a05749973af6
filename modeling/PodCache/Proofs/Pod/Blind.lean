import PodCache.Pod.Fault
import PodCache.Proofs.Pod.Closed

/-!
# Worlds that look alike to a pod

A pod knows of the world what its services tell it.  If the services answer alike in worlds that are
related in some way, and leave them so related, then everything that the pod does is the same in
both, and leaves them so related (`blind_perform`).  Related to itself may be any world that has a
property, and then it is a property that the pod preserves.
-/

namespace PodCache

variable {V ω α β : Type}

namespace Services

/-- Services answer alike in related worlds, and leave them related. -/
def Blind (R : ω → ω → Prop) (services : Services ω) : Prop :=
  ∀ r w w', R w w' → (services r w).wait = (services r w').wait ∧
    (services r w).result = (services r w').result ∧ R (services r w).world (services r w').world

variable {R : ω → ω → Prop} {services : Services ω} {w w' : ω}

/-- Faults see nothing that the services do not see. -/
theorem Blind.disturbed (h : Blind R services) (faults : Faults) :
    Blind R (services.disturbed faults) := by
  intro r w w' hw
  obtain ⟨hwait, hresult, hworld⟩ := h r w w' hw
  unfold Services.disturbed
  dsimp only
  cases (faults r.point).failure with
  | none => exact ⟨congrArg ((faults r.point).delay + ·) hwait, hresult, hworld⟩
  | some e => exact ⟨rfl, rfl, hw⟩

theorem Blind.wait (h : Blind R services) (r : Request) (hw : R w w') :
    (services.wait r w).1 = (services.wait r w').1 ∧
      R (services.wait r w).2 (services.wait r w').2 := (h r w w' hw).2

theorem Blind.waitWithin (h : Blind R services) (limit : Duration) (r : Request) (hw : R w w') :
    (services.waitWithin limit r w).1 = (services.waitWithin limit r w').1 ∧
      R (services.waitWithin limit r w).2 (services.waitWithin limit r w').2 := by
  obtain ⟨hwait, hresult, hworld⟩ := h r w w' hw
  unfold Services.waitWithin
  dsimp only
  rw [hwait]
  split_ifs
  · exact ⟨hresult, hworld⟩
  · exact ⟨rfl, hw⟩

end Services

namespace Pod

/-- What a step comes to in two worlds is the same, and the worlds are related. -/
structure SameEnd (R : ω → ω → Prop) (x x' : α × Scene V ω) : Prop where
  answer : x.1 = x'.1
  pod : x.2.pod = x'.2.pod
  notes : x.2.notes = x'.2.notes
  world : R x.2.world x'.2.world

/-- A step does the same in related worlds, and leaves them related. -/
def Blind (R : ω → ω → Prop) (x : Act V ω α) : Prop :=
  ∀ pod notes w w', R w w' → SameEnd R (x.run ⟨pod, w, notes⟩) (x.run ⟨pod, w', notes⟩)

variable {R : ω → ω → Prop} {services : Services ω}

/-! ## Steps -/

theorem blind_pure (a : α) : Blind R (pure a : Act V ω α) := fun _ _ _ _ h => ⟨rfl, rfl, rfl, h⟩

theorem Blind.bind {x : Act V ω α} {y : α → Act V ω β} (hx : Blind R x)
    (hy : ∀ a, Blind R (y a)) : Blind R (x >>= y) := by
  intro pod notes w w' hw
  rw [StateT.run_bind, StateT.run_bind]
  generalize hr : x.run ⟨pod, w, notes⟩ = end₁
  generalize hr' : x.run ⟨pod, w', notes⟩ = end₂
  have first : SameEnd R end₁ end₂ := hr ▸ hr' ▸ hx pod notes w w' hw
  obtain ⟨a, pod₁, w₁, notes₁⟩ := end₁
  obtain ⟨a₂, pod₂, w₂, notes₂⟩ := end₂
  obtain ⟨ha, hpod, hnotes, hworld⟩ := first
  cases ha
  cases hpod
  cases hnotes
  exact hy a pod₁ notes₁ w₁ w₂ hworld

theorem Blind.map {x : Act V ω α} (g : α → β) (hx : Blind R x) : Blind R (g <$> x) := by
  intro pod notes w w' hw
  obtain ⟨ha, hpod, hnotes, hworld⟩ := hx pod notes w w' hw
  exact ⟨congrArg g ha, hpod, hnotes, hworld⟩

/-- A step may look at its pod. -/
theorem blind_state_bind {y : Scene V ω → Act V ω β} (hy : ∀ s, Blind R (y s))
    (hpod : ∀ pod notes w w', y ⟨pod, w, notes⟩ = y ⟨pod, w', notes⟩) :
    Blind R (MonadState.get >>= y) := by
  intro pod notes w w' hw
  have h := hy ⟨pod, w, notes⟩ pod notes w w' hw
  have hsame : (MonadState.get >>= y).run ⟨pod, w', notes⟩ =
      (y ⟨pod, w, notes⟩).run ⟨pod, w', notes⟩ := by
    rw [hpod pod notes w w']
    rfl
  rw [hsame]
  exact h

theorem blind_change (g : Pod V → Pod V) : Blind R (change g) :=
  fun _ _ _ _ h => ⟨rfl, rfl, rfl, h⟩

theorem blind_count (g : Stats → Stats) : Blind R (count g : Act V ω Unit) := blind_change _

theorem blind_note (n : Note) : Blind R (note n : Act V ω Unit) :=
  fun _ _ _ _ h => ⟨rfl, rfl, rfl, h⟩

theorem blind_log (entry : LogEntry) : Blind R (log entry : Act V ω Unit) := by
  refine blind_state_bind (fun s => ?_) fun _ _ _ _ => rfl
  split_ifs
  · exact blind_note _
  · exact blind_pure ()

theorem blind_warn {x : Except Error Bytes} {entry : Error → LogEntry} {y : Unit → Act V ω β}
    (hy : Blind R (y ())) :
    Blind R (match x with | .error e => log (entry e) >>= y | _ => y ()) := by
  rcases x with e | _
  · exact (blind_log _).bind fun _ => hy
  · exact hy

theorem blind_report (e : Error) : Blind R (report e : Act V ω Unit) := by
  refine blind_state_bind (fun s => ?_) fun _ _ _ _ => rfl
  split_ifs
  · exact blind_note _
  · exact blind_pure ()

theorem blind_request (h : services.Blind R) (r : Request) :
    Blind R (request services r : Act V ω _) := by
  refine (blind_note _).bind fun _ pod notes w w' hw => ?_
  obtain ⟨hanswer, hworld⟩ := h.wait r hw
  exact ⟨hanswer, rfl, rfl, hworld⟩

theorem blind_requestWithin (h : services.Blind R) (r : Request) :
    Blind R (requestWithin services r : Act V ω _) := by
  refine (blind_note _).bind fun _ pod notes w w' hw => ?_
  obtain ⟨hanswer, hworld⟩ := h.waitWithin pod.settings.timeout r hw
  exact ⟨hanswer, rfl, rfl, hworld⟩

theorem blind_localGet (key : String) : Blind R (localGet key : Act V ω _) :=
  fun _ _ _ _ h => ⟨rfl, rfl, rfl, h⟩

theorem blind_localSet (key : String) (value : V) : Blind R (localSet key value : Act V ω Unit) :=
  fun _ _ _ _ h => ⟨rfl, rfl, rfl, h⟩

theorem blind_localDelete (key : String) : Blind R (localDelete key : Act V ω Unit) :=
  fun _ _ _ _ h => ⟨rfl, rfl, rfl, h⟩

theorem blind_localClear : Blind R (localClear : Act V ω Unit) :=
  fun _ _ _ _ h => ⟨rfl, rfl, rfl, h⟩

theorem blind_localClose : Blind R (localClose : Act V ω Unit) :=
  fun _ _ _ _ h => ⟨rfl, rfl, rfl, h⟩

theorem blind_transformEvent (transform : Transform V) (e : Event) :
    Blind R (transformEvent transform e : Act V ω _) := fun _ _ _ _ h => ⟨rfl, rfl, rfl, h⟩

/-! ## Operations -/

variable (h : services.Blind R)
include h

theorem blind_teardown : Blind R (teardown services : Act V ω _) := by
  refine (blind_request h _).bind fun synchronizer => blind_warn ?_
  refine (blind_request h _).bind fun store => blind_warn ?_
  refine blind_localClose.bind fun _ => blind_state_bind (fun s => ?_) fun _ _ _ _ => rfl
  refine (blind_log _).bind fun _ => ?_
  rcases synchronizer with e | _
  · exact blind_pure _
  · rcases store with e | _ <;> exact blind_pure _

theorem blind_close : Blind R (close services : Act V ω _) := by
  refine blind_state_bind (fun s => ?_) fun _ _ _ _ => rfl
  split_ifs
  · exact blind_pure _
  · exact (blind_change _).bind fun _ => blind_teardown h

theorem blind_start : Blind R (start services : Act V ω _) := by
  refine (blind_requestWithin h _).bind fun answer => ?_
  rcases answer with e | _
  · refine (blind_log _).bind fun _ => (blind_change _).bind fun _ =>
      (blind_teardown h).bind fun failure => ?_
    rcases failure with e' | _
    · exact (blind_log _).bind fun _ => (blind_report _).bind fun _ => blind_pure _
    · exact blind_pure _
  · exact blind_state_bind (fun s => (blind_log _).bind fun _ => blind_pure _) fun _ _ _ _ => rfl

theorem blind_fetch (key : String) : Blind R (fetch services key : Act V ω _) := by
  refine (blind_requestWithin h _).bind fun answer => ?_
  split
  · exact (blind_count _).bind fun _ => (blind_log _).bind fun _ => blind_pure _
  · exact (blind_count _).bind fun _ => (blind_log _).bind fun _ =>
      (blind_report _).bind fun _ => blind_pure _
  · refine (blind_count _).bind fun _ => blind_state_bind (fun s => ?_) fun _ _ _ _ => rfl
    split
    · exact (blind_localSet _ _).bind fun _ => (blind_log _).bind fun _ => blind_pure _
    · exact (blind_log _).bind fun _ => (blind_report _).bind fun _ => blind_pure _

theorem blind_get (key : String) : Blind R (get services key : Act V ω _) := by
  refine blind_state_bind (fun s => ?_) fun _ _ _ _ => rfl
  split_ifs
  · exact blind_pure _
  · refine (blind_localGet key).bind fun found => ?_
    rcases found with _ | value
    · exact (blind_count _).bind fun _ => blind_fetch h key
    · exact (blind_count _).bind fun _ => (blind_log _).bind fun _ => blind_pure _

theorem blind_publish (e : Event) : Blind R (publish services e : Act V ω _) := by
  refine (blind_requestWithin h _).bind fun answer => ?_
  rcases answer with e' | _
  · exact (blind_log _).bind fun _ => blind_report _
  · exact blind_log _

omit h in
theorem blind_fail (entry : LogEntry) (e : Error) : Blind R (fail entry e : Act V ω _) :=
  (blind_log _).bind fun _ => (blind_report _).bind fun _ => blind_pure _

theorem blind_setAnd (announcement : Announcement) (key : String) (value : V) :
    Blind R (setAnd announcement services key value) := by
  refine blind_state_bind (fun s => ?_) fun _ _ _ _ => rfl
  dsimp only
  split_ifs
  · exact blind_pure _
  all_goals
    refine (blind_localSet _ _).bind fun _ => ?_
    split
    · exact blind_fail _ _
  · refine (blind_requestWithin h _).bind fun written => ?_
    rcases written with e | _
    · exact blind_fail _ _
    · exact (blind_publish h _).bind fun _ => blind_pure _
  · refine (blind_log _).bind fun _ => (blind_pure _).bind fun written => ?_
    rcases written with e | _
    · exact blind_fail _ _
    · exact (blind_publish h _).bind fun _ => blind_pure _

theorem blind_delete (key : String) : Blind R (delete services key : Act V ω _) := by
  refine blind_state_bind (fun s => ?_) fun _ _ _ _ => rfl
  dsimp only
  split_ifs
  · exact blind_pure _
  · refine (blind_localDelete key).bind fun _ => (blind_requestWithin h _).bind fun answer => ?_
    rcases answer with e | _
    · exact blind_fail _ _
    · exact (blind_publish h _).bind fun _ => blind_pure _

theorem blind_clear : Blind R (clear services : Act V ω _) := by
  refine blind_state_bind (fun s => ?_) fun _ _ _ _ => rfl
  dsimp only
  split_ifs
  · exact blind_pure _
  · refine blind_localClear.bind fun _ => (blind_requestWithin h _).bind fun answer => ?_
    rcases answer with e | _
    · exact blind_fail _ _
    · exact (blind_publish h _).bind fun _ => blind_pure _

omit h

theorem blind_adopted (e : Event) : Blind R (adopted e : Act V ω _) := by
  refine blind_state_bind (fun s => ?_) fun _ _ _ _ => rfl
  dsimp only
  split
  · refine (blind_transformEvent _ e).bind fun value => ?_
    split_ifs
    · exact (blind_log _).bind fun _ => blind_pure _
    · exact blind_pure _
  · split
    · exact blind_pure _
    · exact (blind_log _).bind fun _ => (blind_report _).bind fun _ => blind_pure _

theorem blind_apply (e : Event) : Blind R (apply e : Act V ω _) := by
  refine (blind_log _).bind fun _ => ?_
  cases e.action with
  | set =>
    dsimp only
    split_ifs
    · refine (blind_adopted e).bind fun value => ?_
      rcases value with _ | value
      · exact blind_pure _
      · exact blind_localSet _ _
    · exact blind_pure _
  | invalidate | delete => exact (blind_localDelete _).bind fun _ => blind_count _
  | clear => exact blind_localClear.bind fun _ => blind_count _
  | unknown action => exact blind_log _

theorem blind_handleEvent (e : Event) : Blind R (handleEvent e : Act V ω _) := by
  refine blind_state_bind (fun s => ?_) fun _ _ _ _ => rfl
  split_ifs
  · exact blind_pure _
  · exact blind_apply e

/-- Whatever a pod is asked, it does the same in worlds that its services do not tell apart. -/
theorem blind_perform (h : services.Blind R) (op : Operation V) :
    Blind R (op.perform services) := by
  cases op with
  | get key => exact (blind_get h key).map _
  | write w =>
    cases w with
    | set announcement key value => exact (blind_setAnd h announcement key value).map _
    | delete key => exact (blind_delete h key).map _
    | clear => exact (blind_clear h).map _
  | close => exact (blind_close h).map _
  | stats => exact fun _ _ _ _ h => ⟨rfl, rfl, rfl, h⟩
  | handle e => exact (blind_handleEvent e).map _

end Pod

end PodCache
