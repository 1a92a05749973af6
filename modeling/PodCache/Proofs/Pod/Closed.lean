import PodCache.Proofs.Pod.Deeds

/-!
# Closed pods

Closing a pod empties its local cache and keeps its counters, whatever becomes of its services
(`does_close`).  From then on the pod refuses whatever it is asked, and nothing changes and nothing
is noted (`Operation.perform_of_isSilent`).
-/

namespace PodCache

variable {V ω α β : Type}

/-! ## Empty local caches -/

namespace LocalCache

theorem size_close (c : LocalCache V) : c.close.metrics.size = 0 := by
  cases c with
  | recency c => rfl
  | random c => rfl
  | frequency c => rfl

/-- Maintenance does not bring entries back. -/
theorem size_maintain {c : LocalCache V} (h : c.metrics.size = 0) :
    c.maintain.metrics.size = 0 := by
  cases c with
  | recency c => exact h
  | random c => exact h
  | frequency c =>
    have hempty : c.resident.isEmpty = true := by
      rw [Std.TreeMap.isEmpty_eq_size_eq_zero]
      exact decide_eq_true h
    have hmaintained : c.maintain.resident.isEmpty = true := by
      rw [Std.TreeMap.isEmpty_iff_forall_not_mem]
      intro key hmem
      obtain ⟨slot, hslot⟩ :=
        Option.isSome_iff_exists.1 (Std.TreeMap.isSome_getElem?_iff_mem.2 hmem)
      have hbefore := (FrequencyCache.maintain_trims c).slots key slot hslot
      rw [Std.TreeMap.getElem?_of_isEmpty hempty] at hbefore
      cases hbefore
    rw [Std.TreeMap.isEmpty_eq_size_eq_zero] at hmaintained
    exact of_decide_eq_true hmaintained

end LocalCache

namespace Pod

variable {services : Services ω} {p : Pod V}

/-! ## Closing -/

/-- The first of two failures. -/
def firstFailure : Except Error Bytes → Except Error Bytes → Except Error Unit
  | .error e, _ => .error e
  | .ok _, .error e => .error e
  | .ok _, .ok _ => .ok ()

/-- A failure to close one thing does not keep the others open. -/
theorem does_teardown (services : Services ω) (p : Pod V) (w : ω) :
    let synchronizer := services.wait .synchronizerClose w
    let store := services.wait .storeClose synchronizer.2
    Does (teardown services) p w (firstFailure synchronizer.1 store.1)
      { p with localCache := p.localCache.close } store.2
      [.requested .synchronizerClose, .requested .storeClose, .localClose] := by
  intro synchronizer store
  refine (does_request services .synchronizerClose p w).bind (does_warn ?_)
  refine (does_request services .storeClose p _).bind (does_warn ?_)
  refine (does_localClose p _).bind (does_state_bind fun _ => (does_log _ _ _).bind ?_)
  show Does _ _ _ (firstFailure synchronizer.1 store.1) _ _ _
  rcases synchronizer.1 with e | _
  · exact does_pure _ _ _
  · rcases store.1 with e | _ <;> exact does_pure _ _ _

/-- Closing an open pod leaves it closed and empty, also when a service fails to close. -/
theorem does_close (services : Services ω) (w : ω) (ho : p.closed = false) :
    let synchronizer := services.wait .synchronizerClose w
    let store := services.wait .storeClose synchronizer.2
    Does (close services) p w (firstFailure synchronizer.1 store.1)
      { p with closed := true, localCache := p.localCache.close } store.2
      [.requested .synchronizerClose, .requested .storeClose, .localClose] :=
  does_open ho fun _ => (does_change _ p w).bind (does_teardown services _ w)

/-! ## Starting -/

theorem does_start (p : Pod V) {w w' : ω} {bytes : Bytes}
    (h : services.waitWithin p.settings.timeout .subscribe w = (.ok bytes, w')) :
    Does (start services) p w (.ok ()) p w' [.requested .subscribe] :=
  (does_requestWithin p h).bind
    (does_state_bind fun _ => (does_log _ p w').bind (does_pure _ p w'))

/-- A pod that cannot start is closed, and a failure to close something is reported, as it is not
the one that is returned. -/
theorem does_start_of_error (p : Pod V) {w w' : ω} {e : Error}
    (h : services.waitWithin p.settings.timeout .subscribe w = (.error e, w')) :
    let synchronizer := services.wait .synchronizerClose w'
    let store := services.wait .storeClose synchronizer.2
    Does (start services) p w (.error e)
      { p with closed := true, localCache := p.localCache.close } store.2
      ([.requested .subscribe, .requested .synchronizerClose, .requested .storeClose,
        .localClose] ++ p.settings.reports (failureOf (firstFailure synchronizer.1 store.1))) := by
  intro synchronizer store
  refine (does_requestWithin p h).bind ((does_log _ p w').bind ((does_change _ p w').bind ?_))
  refine (does_teardown services { p with closed := true } w').bind ?_
  dsimp only
  rcases firstFailure synchronizer.1 store.1 with failure | _
  · exact (does_log _ _ _).bind ((does_report failure _ _).returns _)
  · rw [failureOf, Settings.reports_nil]
    exact does_pure _ _ _

end Pod

/-! ## What a closed pod gives -/

/-- What a pod may be asked, and what it may be told. -/
inductive Operation (V : Type) where
  | get (key : String)
  | write (w : Write V)
  | close
  | stats
  /-- A peer's event that reaches the pod by any way. -/
  | handle (e : Event)

/-- What a pod gives. -/
inductive Answer (V : Type) where
  | value (found : Option V)
  | result (result : Except Error Unit)
  | counts (snapshot : Snapshot)
  | done
  deriving DecidableEq

namespace Operation

/-- An operation as a step of the pod. -/
def perform (services : Services ω) : Operation V → Act V ω (Answer V)
  | .get key => .value <$> Pod.get services key
  | .write w => .result <$> w.perform services
  | .close => .result <$> Pod.close services
  | .stats => (fun s => .counts s.pod.snapshot) <$> MonadState.get
  | .handle e => (fun _ => .done) <$> Pod.handleEvent e

/-- What a closed pod gives, whose counters are what they were when it was closed. -/
def refusal (stats : Stats) : Operation V → Answer V
  | .get _ => .value none
  | .write _ => .result (.error .closed)
  | .close => .result (.ok ())
  | .stats => .counts (stats.snapshot 0)
  | .handle _ => .done

end Operation

/-- A pod that was closed, with nothing in its local cache. -/
structure Pod.IsSilent (p : Pod V) : Prop where
  closed : p.closed = true
  empty : p.localCache.metrics.size = 0

theorem Pod.run_of_closed {s : Scene V ω} (h : s.pod.closed = true) (a : α)
    (x : Scene V ω → Act V ω α) :
    (MonadState.get >>= fun s => if s.pod.closed = true then pure a else x s).run s = (a, s) := by
  show (if s.pod.closed = true then pure a else x s).run s = (a, s)
  rw [if_pos h]
  rfl

theorem Pod.run_map {x : Act V ω α} {s s' : Scene V ω} {a : α} (f : α → β)
    (hx : x.run s = (a, s')) : (f <$> x).run s = (f a, s') := by
  rw [StateT.run_map, hx]
  rfl

/-- Whatever a closed pod is asked, it refuses, and it sends no request, runs no callback, changes
nothing and leaves no note. -/
theorem Operation.perform_of_isSilent (services : Services ω) {s : Scene V ω}
    (h : s.pod.IsSilent) (op : Operation V) :
    (op.perform services).run s = (op.refusal s.pod.stats, s) := by
  cases op with
  | get key => exact Pod.run_map _ (Pod.run_of_closed h.closed none _)
  | write w =>
    apply Pod.run_map
    cases w with
    | set | delete | clear => exact Pod.run_of_closed h.closed (Except.error Error.closed) _
  | close => exact Pod.run_map _ (Pod.run_of_closed h.closed (Except.ok ()) _)
  | stats =>
    show (Answer.counts s.pod.snapshot, s) = _
    rw [Pod.snapshot, h.empty]
    rfl
  | handle e => exact Pod.run_map _ (Pod.run_of_closed h.closed () _)

end PodCache
