import PodCache.Proofs.Pod.Writes

/-!
# What pods do

The *deeds* of a pod are its notes but for the log: what it asks of its local cache and of its
services, what its transform decides on, and which failures it reports.  `Does` says all that a step
comes to.  The rules for sequences come first, then one lemma for each step.  The paths that an
operation of an open pod can take are listed once, with their deeds (`Looks`, `Writes`, `Hears`).
-/

namespace PodCache

variable {V ω α β : Type}

/-- Whether a note is about something else than the log. -/
def Note.isDeed : Note → Bool
  | .logged _ => false
  | _ => true

/-- The deeds so far. -/
def Scene.deeds (s : Scene V ω) : List Note := s.notes.filter Note.isDeed

/-- The reports of failures, if there is a handler. -/
def Settings.reports (settings : Settings V) (es : List Error) : List Note :=
  if settings.hasHandler then es.map .reported else []

@[simp] theorem Settings.reports_nil (settings : Settings V) : settings.reports [] = [] :=
  ite_self []

/-- The failure that an answer tells of. -/
def failureOf : Except Error α → List Error
  | .ok _ => []
  | .error e => [e]

namespace Pod

variable {services : Services ω} {p p' p'' : Pod V} {w w' w'' : ω} {a : α} {b : β}
  {ds ds' : List Note}

/-- From a pod in a world, a step gives an answer and leaves a pod and a world, and its deeds are
these. -/
def Does (x : Act V ω α) (p : Pod V) (w : ω) (a : α) (p' : Pod V) (w' : ω) (deeds : List Note) :
    Prop :=
  ∀ notes, ∃ added, x.run ⟨p, w, notes⟩ = (a, ⟨p', w', notes ++ added⟩) ∧
    added.filter Note.isDeed = deeds

/-! ## Rules for sequences -/

theorem does_pure (a : α) (p : Pod V) (w : ω) : Does (pure a) p w a p w [] :=
  fun notes => ⟨[], by rw [List.append_nil]; rfl, rfl⟩

theorem Does.bind {x : Act V ω α} {f : α → Act V ω β} (hx : Does x p w a p' w' ds)
    (hf : Does (f a) p' w' b p'' w'' ds') : Does (x >>= f) p w b p'' w'' (ds ++ ds') := by
  intro notes
  obtain ⟨added, hrun, rfl⟩ := hx notes
  obtain ⟨added', hrest, rfl⟩ := hf (notes ++ added)
  refine ⟨added ++ added', ?_, List.filter_append ..⟩
  rw [StateT.run_bind, hrun, ← List.append_assoc]
  exact hrest

/-- What a step gives may be put aside for something else. -/
theorem Does.returns {x : Act V ω α} (hx : Does x p w a p' w' ds) (b : β) :
    Does (x >>= fun _ => pure b) p w b p' w' ds := by
  have h : Does (x >>= fun _ => pure b) p w b p' w' (ds ++ []) := hx.bind (does_pure b p' w')
  rwa [List.append_nil] at h

theorem Does.map {x : Act V ω α} (g : α → β) (hx : Does x p w a p' w' ds) :
    Does (g <$> x) p w (g a) p' w' ds := by
  intro notes
  obtain ⟨added, hrun, hds⟩ := hx notes
  refine ⟨added, ?_, hds⟩
  rw [StateT.run_map, hrun]
  rfl

/-- A step may look at its pod. -/
theorem does_state_bind {f : Scene V ω → Act V ω β}
    (hf : ∀ notes, Does (f ⟨p, w, notes⟩) p w b p' w' ds) :
    Does (MonadState.get >>= f) p w b p' w' ds :=
  fun notes => hf notes notes

/-- A pod that is open does what it does unless it is closed. -/
theorem does_open {x : Act V ω β} {f : Scene V ω → Act V ω β} (ho : p.closed = false)
    (hf : ∀ notes, Does (f ⟨p, w, notes⟩) p w b p' w' ds) :
    Does (MonadState.get >>= fun s => if s.pod.closed = true then x else f s) p w b p' w' ds := by
  refine does_state_bind fun notes => ?_
  rw [if_neg (by rw [ho]; exact Bool.false_ne_true)]
  exact hf notes

/-- What is added to the deeds of a scene. -/
theorem Does.deeds {x : Act V ω α} {s : Scene V ω} (hx : Does x s.pod s.world a p' w' ds) :
    (x.run s).1 = a ∧ (x.run s).2.pod = p' ∧ (x.run s).2.world = w' ∧
      (x.run s).2.deeds = s.deeds ++ ds := by
  obtain ⟨added, hrun, rfl⟩ := hx s.notes
  have h : x.run s = (a, ⟨p', w', s.notes ++ added⟩) := hrun
  rw [h]
  exact ⟨rfl, rfl, rfl, List.filter_append ..⟩

/-! ## Steps -/

theorem does_change (g : Pod V → Pod V) (p : Pod V) (w : ω) : Does (change g) p w () (g p) w [] :=
  fun notes => ⟨[], by rw [List.append_nil]; rfl, rfl⟩

theorem does_note {n : Note} (hn : n.isDeed = true) (p : Pod V) (w : ω) :
    Does (note n) p w () p w [n] :=
  fun _ => ⟨[n], rfl, List.filter_cons_of_pos hn⟩

theorem does_log (entry : LogEntry) (p : Pod V) (w : ω) : Does (log entry) p w () p w [] := by
  refine does_state_bind fun notes => ?_
  split_ifs
  · exact fun _ => ⟨[.logged entry], rfl, rfl⟩
  · exact does_pure () p w

theorem does_report (e : Error) (p : Pod V) (w : ω) :
    Does (report e) p w () p w (p.settings.reports [e]) := by
  refine does_state_bind fun notes => ?_
  unfold Settings.reports
  split_ifs
  · exact does_note rfl p w
  · exact does_pure () p w

theorem does_request (services : Services ω) (r : Request) (p : Pod V) (w : ω) :
    Does (request services r) p w (services.wait r w).1 p (services.wait r w).2 [.requested r] :=
  fun _ => ⟨[.requested r], rfl, rfl⟩

theorem does_requestWithin (p : Pod V) {r : Request} {answer : Except Error Bytes}
    (h : services.waitWithin p.settings.timeout r w = (answer, w')) :
    Does (requestWithin services r) p w answer p w' [.requested r] := by
  refine fun notes => ⟨[.requested r], ?_, rfl⟩
  show ((services.waitWithin p.settings.timeout r w).1,
    (⟨p, (services.waitWithin p.settings.timeout r w).2, _⟩ : Scene V ω)) = _
  rw [h]

/-- A failure is logged, and the step goes on. -/
theorem does_warn {x : Except Error Bytes} {entry : Error → LogEntry} {f : Unit → Act V ω β}
    (hf : Does (f ()) p w b p' w' ds) :
    Does (match x with | .error e => log (entry e) >>= f | _ => f ()) p w b p' w' ds := by
  rcases x with e | _
  · exact (does_log _ p w).bind hf
  · exact hf

/-! ## Steps that change the pod -/

/-- The pod with other counters. -/
def counted (p : Pod V) (f : Stats → Stats) : Pod V := { p with stats := f p.stats }

/-- The pod after a lookup in the local cache, with other counters. -/
def looked (p : Pod V) (key : String) (f : Stats → Stats) : Pod V :=
  { p with localCache := (p.localCache.get key).2, stats := f p.stats }

/-- The pod after an entry was offered to the local cache. -/
def kept (p : Pod V) (key : String) (value : V) : Pod V :=
  { p with localCache := (p.localCache.set key value (p.cost key value)).2 }

/-- The note of an entry that is offered to the local cache. -/
def keeping (p : Pod V) (key : String) (value : V) : Note :=
  .localSet key (p.cost key value) (p.localCache.set key value (p.cost key value)).1

/-- The pod after the transform has decided on an event. -/
def saw (p : Pod V) (e : Event) : Pod V := { p with transformed := e :: p.transformed }

theorem does_count (f : Stats → Stats) (p : Pod V) (w : ω) :
    Does (count f) p w () (p.counted f) w [] :=
  does_change _ p w

theorem does_localGet {key : String} {found : Option V} (h : p.localCache.contents key = found)
    (w : ω) : Does (localGet key) p w found { p with localCache := (p.localCache.get key).2 } w
      [.localGet key found.isSome] := by
  obtain rfl : (p.localCache.get key).1 = found := (LocalCache.get_fst _ _).trans h
  exact fun _ => ⟨[_], rfl, rfl⟩

theorem does_localSet (key : String) (value : V) (p : Pod V) (w : ω) :
    Does (localSet key value) p w () (p.kept key value) w [p.keeping key value] :=
  fun _ => ⟨[p.keeping key value], rfl, rfl⟩

theorem does_localDelete (key : String) (p : Pod V) (w : ω) :
    Does (localDelete key) p w () { p with localCache := p.localCache.delete key } w
      [.localDelete key] :=
  fun _ => ⟨[.localDelete key], rfl, rfl⟩

theorem does_localClear (p : Pod V) (w : ω) :
    Does localClear p w () { p with localCache := p.localCache.clear } w [.localClear] :=
  fun _ => ⟨[.localClear], rfl, rfl⟩

theorem does_localClose (p : Pod V) (w : ω) :
    Does localClose p w () { p with localCache := p.localCache.close } w [.localClose] :=
  fun _ => ⟨[.localClose], rfl, rfl⟩

theorem does_transformEvent (transform : Transform V) (e : Event) (p : Pod V) (w : ω) :
    Does (transformEvent transform e) p w (transform p.transformed e) (p.saw e) w
      [.transformed e.key] :=
  fun _ => ⟨[.transformed e.key], rfl, rfl⟩

/-! ## Lookups -/

/-- The paths of a lookup in the store: what it gives, the pod and the world that it leaves, and its
deeds. -/
inductive Fetches (services : Services ω) (p : Pod V) (w : ω) (key : String) :
    Option V → Pod V → ω → List Note → Prop
  | missing {w' : ω}
      (hs : services.waitWithin p.settings.timeout (.storeGet key) w = (.error .notFound, w')) :
      Fetches services p w key none
        (p.counted fun s => { s with remoteMisses := s.remoteMisses + 1 }) w'
        [.requested (.storeGet key)]
  | failed {e : Error} {w' : ω}
      (hs : services.waitWithin p.settings.timeout (.storeGet key) w = (.error e, w'))
      (he : e ≠ .notFound) :
      Fetches services p w key none
        (p.counted fun s => { s with remoteMisses := s.remoteMisses + 1 }) w'
        (.requested (.storeGet key) :: p.settings.reports [e])
  | undecodable {bytes : Bytes} {e : Error} {w' : ω}
      (hs : services.waitWithin p.settings.timeout (.storeGet key) w = (.ok bytes, w'))
      (hd : p.settings.codec.decode bytes = .error e) :
      Fetches services p w key none
        (p.counted fun s => { s with remoteHits := s.remoteHits + 1 }) w'
        (.requested (.storeGet key) :: p.settings.reports [e])
  | found {bytes : Bytes} {value : V} {w' : ω}
      (hs : services.waitWithin p.settings.timeout (.storeGet key) w = (.ok bytes, w'))
      (hd : p.settings.codec.decode bytes = .ok value) :
      Fetches services p w key (some value)
        ((p.counted fun s => { s with remoteHits := s.remoteHits + 1 }).kept key value) w'
        [.requested (.storeGet key), p.keeping key value]

theorem does_fetch (services : Services ω) (key : String) (p : Pod V) (w : ω) :
    ∃ found p' w' ds, Fetches services p w key found p' w' ds ∧
      Does (fetch services key) p w found p' w' ds := by
  rcases hs : services.waitWithin p.settings.timeout (.storeGet key) w with ⟨e | bytes, w'⟩
  · by_cases he : e = .notFound
    · subst he
      refine ⟨_, _, _, _, .missing hs, (does_requestWithin p hs).bind ?_⟩
      exact (does_count _ p w').bind ((does_log _ _ w').bind (does_pure _ _ w'))
    · refine ⟨_, _, _, _, .failed hs he, (does_requestWithin p hs).bind ?_⟩
      have told : Does (do
          count fun s => { s with remoteMisses := s.remoteMisses + 1 }
          log (.readFailed key e)
          report e
          return none : Act V ω (Option V)) p w' none
          (p.counted fun s => { s with remoteMisses := s.remoteMisses + 1 }) w'
          (p.settings.reports [e]) := by
        exact (does_count _ p w').bind ((does_log _ _ w').bind ((does_report e _ w').returns none))
      cases e with
      | notFound => exact absurd rfl he
      | _ => exact told
  · cases hd : p.settings.codec.decode bytes with
    | error e =>
      refine ⟨_, _, _, _, .undecodable hs hd, (does_requestWithin p hs).bind ?_⟩
      refine (does_count _ p w').bind (does_state_bind fun notes => ?_)
      dsimp only [counted]
      rw [hd]
      exact (does_log _ _ w').bind ((does_report e _ w').returns none)
    | ok value =>
      refine ⟨_, _, _, _, .found hs hd, (does_requestWithin p hs).bind ?_⟩
      refine (does_count _ p w').bind (does_state_bind fun notes => ?_)
      dsimp only [counted]
      rw [hd]
      exact (does_localSet key value _ w').bind ((does_log _ _ w').returns (some value))

/-- The paths of a lookup of an open pod. -/
inductive Looks (services : Services ω) (p : Pod V) (w : ω) (key : String) :
    Option V → Pod V → ω → List Note → Prop
  | hit {value : V} (h : p.localCache.contents key = some value) :
      Looks services p w key (some value)
        (p.looked key fun s => { s with localHits := s.localHits + 1 }) w [.localGet key true]
  | miss {found : Option V} {p' : Pod V} {w' : ω} {ds : List Note}
      (h : p.localCache.contents key = none)
      (hf : Fetches services (p.looked key fun s => { s with localMisses := s.localMisses + 1 }) w
        key found p' w' ds) :
      Looks services p w key found p' w' (.localGet key false :: ds)

theorem does_get (services : Services ω) (ho : p.closed = false) (w : ω) (key : String) :
    ∃ found p' w' ds, Looks services p w key found p' w' ds ∧
      Does (get services key) p w found p' w' ds := by
  cases h : p.localCache.contents key with
  | some value =>
    refine ⟨_, _, _, _, .hit h, does_open ho fun _ => ?_⟩
    exact (does_localGet h w).bind ((does_count _ _ w).bind ((does_log _ _ w).bind
      (does_pure _ _ w)))
  | none =>
    obtain ⟨found, p', w', ds, hpath, hdoes⟩ := does_fetch services key
      (p.looked key fun s => { s with localMisses := s.localMisses + 1 }) w
    refine ⟨_, _, _, _, .miss h hpath, does_open ho fun _ => ?_⟩
    exact (does_localGet h w).bind ((does_count _ _ w).bind hdoes)

end Pod

/-! ## Writes -/

namespace Write

/-- The pod after the local effect of a write. -/
def onPod (p : Pod V) : Write V → Pod V
  | .set _ key value => p.kept key value
  | .delete key => { p with localCache := p.localCache.delete key }
  | .clear => { p with localCache := p.localCache.clear }

/-- The note of the local effect of a write. -/
def deed (p : Pod V) : Write V → Note
  | .set _ key value => p.keeping key value
  | .delete key => .localDelete key
  | .clear => .localClear

end Write

namespace Pod

variable {services : Services ω} {p p' : Pod V} {w w' : ω} {ds : List Note}

/-- The paths of a write of an open pod after its local effect: what it gives, the world that it
leaves, and its deeds. -/
inductive Writes (services : Services ω) (p : Pod V) (w : ω) (x : Write V) :
    Except Error Unit → ω → List Note → Prop
  | unencodable {e : Error} (hv : x.verdict p.settings.codec = .error e) :
      Writes services p w x (.error e) w (p.settings.reports [e])
  | refused {e : Error} {w' : ω} (hv : x.verdict p.settings.codec = .ok ())
      (hr : x.ReachesStore p.settings.writeThrough)
      (hs : services.waitWithin p.settings.timeout (x.request p.settings.codec) w =
        (.error e, w')) :
      Writes services p w x (.error e) w'
        (.requested (x.request p.settings.codec) :: p.settings.reports [e])
  | stored {bytes : Bytes} {answer : Except Error Bytes} {w' w'' : ω}
      (hv : x.verdict p.settings.codec = .ok ()) (hr : x.ReachesStore p.settings.writeThrough)
      (hs : services.waitWithin p.settings.timeout (x.request p.settings.codec) w =
        (.ok bytes, w'))
      (hp : services.waitWithin p.settings.timeout
        (.publish (x.event p.settings.codec p.settings.instanceId)) w' = (answer, w'')) :
      Writes services p w x (.ok ()) w''
        (.requested (x.request p.settings.codec) ::
          .requested (.publish (x.event p.settings.codec p.settings.instanceId)) ::
            p.settings.reports (failureOf answer))
  | unstored {answer : Except Error Bytes} {w' : ω} (hv : x.verdict p.settings.codec = .ok ())
      (hr : ¬ x.ReachesStore p.settings.writeThrough)
      (hp : services.waitWithin p.settings.timeout
        (.publish (x.event p.settings.codec p.settings.instanceId)) w = (answer, w')) :
      Writes services p w x (.ok ()) w'
        (.requested (.publish (x.event p.settings.codec p.settings.instanceId)) ::
          p.settings.reports (failureOf answer))

theorem does_publish (p : Pod V) {e : Event} {answer : Except Error Bytes}
    (hp : services.waitWithin p.settings.timeout (.publish e) w = (answer, w')) :
    Does (publish services e) p w () p w'
      (.requested (.publish e) :: p.settings.reports (failureOf answer)) := by
  cases answer with
  | error e' =>
    exact (does_requestWithin p hp).bind ((does_log _ p w').bind (does_report e' p w'))
  | ok bytes =>
    rw [failureOf, p.settings.reports_nil]
    exact (does_requestWithin p hp).bind (does_log _ p w')

theorem does_fail (entry : LogEntry) (e : Error) (p : Pod V) (w : ω) :
    Does (fail entry e) p w (.error e) p w (p.settings.reports [e]) :=
  (does_log _ p w).bind ((does_report e p w).returns _)

theorem does_setAnd (services : Services ω) (ho : p.closed = false) (w : ω)
    (announcement : Announcement) (key : String) (value : V) :
    ∃ result w' ds, Writes services p w (.set announcement key value) result w' ds ∧
      Does (setAnd announcement services key value) p w result (p.kept key value) w'
        (p.keeping key value :: ds) := by
  cases hv : p.settings.codec.encode value with
  | error e =>
    refine ⟨_, _, _, .unencodable (by rw [Write.verdict, hv]; rfl), does_open ho fun _ => ?_⟩
    dsimp only
    rw [hv]
    exact (does_localSet key value p w).bind (does_fail _ e _ w)
  | ok bytes =>
    have hverdict : (Write.set announcement key value).verdict p.settings.codec = .ok () := by
      rw [Write.verdict, hv]
      rfl
    obtain rfl : p.settings.codec.bytes value = bytes := by
      rw [Codec.bytes, hv]
      rfl
    by_cases hr : p.settings.writeThrough = true
    · rcases hs : services.waitWithin p.settings.timeout
        (.storeSet key (p.settings.codec.bytes value)) w with ⟨e | taken, w'⟩
      · refine ⟨_, _, _, .refused hverdict hr hs, does_open ho fun _ => ?_⟩
        dsimp only
        rw [hv]
        dsimp only
        rw [if_pos hr]
        exact (does_localSet key value p w).bind
          ((does_requestWithin (p.kept key value) hs).bind (does_fail _ e _ w'))
      · rcases hp : services.waitWithin p.settings.timeout (.publish (announcement.event key
          p.settings.instanceId (p.settings.codec.bytes value))) w' with ⟨answer, w''⟩
        refine ⟨_, _, _, .stored hverdict hr hs hp, does_open ho fun _ => ?_⟩
        dsimp only
        rw [hv]
        dsimp only
        rw [if_pos hr]
        exact (does_localSet key value p w).bind
          ((does_requestWithin (p.kept key value) hs).bind
            ((does_publish (p.kept key value) hp).returns _))
    · rcases hp : services.waitWithin p.settings.timeout (.publish (announcement.event key
        p.settings.instanceId (p.settings.codec.bytes value))) w with ⟨answer, w'⟩
      refine ⟨_, _, _, .unstored hverdict hr hp, does_open ho fun _ => ?_⟩
      dsimp only
      rw [hv]
      dsimp only
      rw [if_neg hr]
      exact (does_localSet key value p w).bind
        (((does_log _ _ w).bind (does_pure _ _ w)).bind
          ((does_publish (p.kept key value) hp).returns _))

theorem does_delete (services : Services ω) (ho : p.closed = false) (w : ω) (key : String) :
    ∃ result w' ds, Writes services p w (.delete key) result w' ds ∧
      Does (delete services key) p w result ((Write.delete key).onPod p) w'
        (.localDelete key :: ds) := by
  rcases hs : services.waitWithin p.settings.timeout (.storeDelete key) w with ⟨e | taken, w'⟩
  · refine ⟨_, _, _, .refused rfl trivial hs, does_open ho fun _ => ?_⟩
    exact (does_localDelete key p w).bind
      ((does_requestWithin ((Write.delete key).onPod p) hs).bind (does_fail _ e _ w'))
  · rcases hp : services.waitWithin p.settings.timeout
      (.publish (.delete key p.settings.instanceId)) w' with ⟨answer, w''⟩
    refine ⟨_, _, _, .stored rfl trivial hs hp, does_open ho fun _ => ?_⟩
    exact (does_localDelete key p w).bind
      ((does_requestWithin ((Write.delete key).onPod p) hs).bind
        ((does_publish ((Write.delete key).onPod p) hp).returns _))

theorem does_clear (services : Services ω) (ho : p.closed = false) (w : ω) :
    ∃ result w' ds, Writes services p w .clear result w' ds ∧
      Does (clear services) p w result (Write.clear.onPod p) w' (.localClear :: ds) := by
  rcases hs : services.waitWithin p.settings.timeout .storeClear w with ⟨e | taken, w'⟩
  · refine ⟨_, _, _, .refused rfl trivial hs, does_open ho fun _ => ?_⟩
    exact (does_localClear p w).bind
      ((does_requestWithin (Write.clear.onPod p) hs).bind (does_fail _ e _ w'))
  · rcases hp : services.waitWithin p.settings.timeout (.publish (.clear p.settings.instanceId)) w'
      with ⟨answer, w''⟩
    refine ⟨_, _, _, .stored rfl trivial hs hp, does_open ho fun _ => ?_⟩
    exact (does_localClear p w).bind
      ((does_requestWithin (Write.clear.onPod p) hs).bind
        ((does_publish (Write.clear.onPod p) hp).returns _))

/-- A write of an open pod has its local effect first. -/
theorem does_perform (services : Services ω) (ho : p.closed = false) (w : ω) (x : Write V) :
    ∃ result w' ds, Writes services p w x result w' ds ∧
      Does (x.perform services) p w result (x.onPod p) w' (x.deed p :: ds) := by
  cases x with
  | set announcement key value => exact does_setAnd services ho w announcement key value
  | delete key => exact does_delete services ho w key
  | clear => exact does_clear services ho w

/-! ## Events of peers -/

/-- What the event of a peer makes of an open pod, and the deeds on the way. -/
inductive Hears (p : Pod V) (e : Event) : Pod V → List Note → Prop
  | blank (ha : e.action = .set) (hp : e.payload = []) : Hears p e p []
  | skipped {transform : Transform V} (ha : e.action = .set) (hp : e.payload ≠ [])
      (ht : p.settings.transform = some transform) (hv : transform p.transformed e = none) :
      Hears p e (p.saw e) [.transformed e.key]
  | transformed {transform : Transform V} {value : V} (ha : e.action = .set) (hp : e.payload ≠ [])
      (ht : p.settings.transform = some transform) (hv : transform p.transformed e = some value) :
      Hears p e ((p.saw e).kept e.key value) [.transformed e.key, p.keeping e.key value]
  | undecodable {failure : Error} (ha : e.action = .set) (hp : e.payload ≠ [])
      (ht : p.settings.transform = none)
      (hv : p.settings.codec.decode e.payload = .error failure) :
      Hears p e p (p.settings.reports [failure])
  | decoded {value : V} (ha : e.action = .set) (hp : e.payload ≠ [])
      (ht : p.settings.transform = none) (hv : p.settings.codec.decode e.payload = .ok value) :
      Hears p e (p.kept e.key value) [p.keeping e.key value]
  | dropped (ha : e.action = .invalidate ∨ e.action = .delete) :
      Hears p e { p with
        localCache := p.localCache.delete e.key
        stats := { p.stats with invalidations := p.stats.invalidations + 1 } } [.localDelete e.key]
  | cleared (ha : e.action = .clear) :
      Hears p e { p with
        localCache := p.localCache.clear
        stats := { p.stats with invalidations := p.stats.invalidations + 1 } } [.localClear]
  | unknown {text : String} (ha : e.action = .unknown text) : Hears p e p []

theorem Hears.frame {e : Event} (h : Hears p e p' ds) :
    p'.settings = p.settings ∧ p'.closed = p.closed := by
  cases h <;> exact ⟨rfl, rfl⟩

theorem does_adopted_of_transform {transform : Transform V} {value : Option V} {e : Event}
    (ht : p.settings.transform = some transform) (hv : transform p.transformed e = value) (w : ω) :
    Does (adopted e) p w value (p.saw e) w [.transformed e.key] := by
  subst hv
  refine does_state_bind fun _ => ?_
  dsimp only
  rw [ht]
  refine (does_transformEvent transform e p w).bind ?_
  split_ifs
  · exact (does_log _ _ w).bind (does_pure _ _ w)
  · exact does_pure _ _ w

theorem does_adopted_of_decoded {value : V} {e : Event} (ht : p.settings.transform = none)
    (hv : p.settings.codec.decode e.payload = .ok value) (w : ω) :
    Does (adopted e) p w (some value) p w [] := by
  refine does_state_bind fun _ => ?_
  dsimp only
  rw [ht, hv]
  exact does_pure _ p w

theorem does_adopted_of_undecodable {failure : Error} {e : Event}
    (ht : p.settings.transform = none)
    (hv : p.settings.codec.decode e.payload = .error failure) (w : ω) :
    Does (adopted e) p w none p w (p.settings.reports [failure]) := by
  refine does_state_bind fun _ => ?_
  dsimp only
  rw [ht, hv]
  exact (does_log _ p w).bind ((does_report failure p w).returns none)

theorem does_apply (p : Pod V) (e : Event) :
    ∃ p' ds, Hears p e p' ds ∧ ∀ w : ω, Does (apply e) p w () p' w ds := by
  have begun {p' : Pod V} {ds : List Note} {f : Unit → Act V ω Unit}
      (hf : ∀ w, Does (f ()) p w () p' w ds) (w : ω) :
      Does (log (.received e) >>= f) p w () p' w ds :=
    (does_log _ p w).bind (hf w)
  cases ha : e.action with
  | set =>
    by_cases hp : e.payload = []
    · refine ⟨_, _, .blank ha hp, begun fun w => ?_⟩
      rw [ha]
      dsimp only
      rw [if_neg (not_not.2 hp)]
      exact does_pure _ p w
    · have taken {p' p'' : Pod V} {value : Option V} {ds ds' : List Note}
          (hadopted : ∀ w : ω, Does (adopted e) p w value p' w ds)
          (hset : ∀ w : ω, Does (value.elim (pure ()) (localSet e.key)) p' w () p'' w ds') (w : ω) :
          Does (apply e) p w () p'' w (ds ++ ds') := by
        refine begun (fun w => ?_) w
        rw [ha]
        dsimp only
        rw [if_pos hp]
        refine (hadopted w).bind ?_
        cases value <;> exact hset w
      cases ht : p.settings.transform with
      | some transform =>
        cases hv : transform p.transformed e with
        | none =>
          exact ⟨_, _, .skipped ha hp ht hv,
            taken (does_adopted_of_transform ht hv) (does_pure _ _)⟩
        | some value =>
          exact ⟨_, _, .transformed ha hp ht hv,
            taken (does_adopted_of_transform ht hv) (does_localSet e.key value _)⟩
      | none =>
        cases hv : p.settings.codec.decode e.payload with
        | error failure =>
          exact ⟨_, _, .undecodable ha hp ht hv, by
            have h := taken (does_adopted_of_undecodable ht hv) (does_pure _ _)
            rwa [List.append_nil] at h⟩
        | ok value =>
          exact ⟨_, _, .decoded ha hp ht hv,
            taken (does_adopted_of_decoded ht hv) (does_localSet e.key value _)⟩
  | invalidate =>
    refine ⟨_, _, .dropped (.inl ha), begun fun w => ?_⟩
    rw [ha]
    exact (does_localDelete e.key p w).bind (does_count _ _ w)
  | delete =>
    refine ⟨_, _, .dropped (.inr ha), begun fun w => ?_⟩
    rw [ha]
    exact (does_localDelete e.key p w).bind (does_count _ _ w)
  | clear =>
    refine ⟨_, _, .cleared ha, begun fun w => ?_⟩
    rw [ha]
    exact (does_localClear p w).bind (does_count _ _ w)
  | unknown text =>
    refine ⟨_, _, .unknown ha, begun fun w => ?_⟩
    rw [ha]
    exact does_log _ p w

theorem does_handleEvent (ho : p.closed = false) (e : Event) :
    ∃ p' ds, Hears p e p' ds ∧ ∀ w : ω, Does (handleEvent e) p w () p' w ds := by
  obtain ⟨p', ds, hpath, hdoes⟩ := does_apply (ω := ω) p e
  exact ⟨p', ds, hpath, fun w => does_open ho fun _ => hdoes w⟩

end Pod

end PodCache
