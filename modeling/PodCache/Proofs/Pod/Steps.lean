import Mathlib.Tactic
import PodCache.Pod.Operations
import PodCache.Proofs.Local.Contents

/-!
# The steps of pods

What an operation gives, and what it does to the local cache and to the world, is decided by the
*core* of a scene: all of it but the counters and the notes.  `Gives x k a k'` says that the step
`x` gives `a` and turns the core `k` into `k'`.  The rules for sequences come first, then one lemma
for each step.
-/

namespace PodCache

/-- A scene without the counters and the notes. -/
structure Core (V ω : Type) where
  settings : Settings V
  closed : Bool
  localCache : LocalCache V
  transformed : List Event
  world : ω

/-- The core of the scenes of a pod in a world. -/
def Pod.core {V ω : Type} (p : Pod V) (world : ω) : Core V ω where
  settings := p.settings
  closed := p.closed
  localCache := p.localCache
  transformed := p.transformed
  world := world

/-- The core of a scene. -/
def Scene.core {V ω : Type} (s : Scene V ω) : Core V ω := s.pod.core s.world

namespace Core

variable {V ω : Type}

/-- The cost of an entry. -/
def cost (c : Core V ω) (key : String) (value : V) : Nat :=
  match c.settings.weigher with
  | none => 1
  | some weigh => weigh key value

/-- A key has been looked up locally. -/
def look (c : Core V ω) (key : String) : Core V ω :=
  { c with localCache := (c.localCache.get key).2 }

/-- An entry has been offered to the local cache. -/
def keep (c : Core V ω) (key : String) (value : V) : Core V ω :=
  { c with localCache := (c.localCache.set key value (c.cost key value)).2 }

/-- A key has been dropped locally. -/
def forget (c : Core V ω) (key : String) : Core V ω :=
  { c with localCache := c.localCache.delete key }

/-- The local cache has been emptied. -/
def forgetAll (c : Core V ω) : Core V ω := { c with localCache := c.localCache.clear }

/-- A transform has decided on an event. -/
def saw (c : Core V ω) (e : Event) : Core V ω := { c with transformed := e :: c.transformed }

/-- The answer to a request that is waited for within the time limit. -/
def answer (services : Services ω) (r : Request) (c : Core V ω) : Except Error Bytes :=
  (services.waitWithin c.settings.timeout r c.world).1

/-- A request has been waited for within the time limit. -/
def asked (services : Services ω) (r : Request) (c : Core V ω) : Core V ω :=
  { c with world := (services.waitWithin c.settings.timeout r c.world).2 }

/-- A request has been waited for without end. -/
def awaited (services : Services ω) (r : Request) (c : Core V ω) : Core V ω :=
  { c with world := (services.wait r c.world).2 }

/-- The pod has been closed. -/
def shut (c : Core V ω) : Core V ω := { c with closed := true }

/-- The local cache has been closed. -/
def forgetForGood (c : Core V ω) : Core V ω := { c with localCache := c.localCache.close }

end Core

namespace Pod

variable {V ω α β : Type}

/-- From every scene of core `k`, a step gives `a` and leaves a scene of core `k'`. -/
def Gives (x : Act V ω α) (k : Core V ω) (a : α) (k' : Core V ω) : Prop :=
  ∀ s : Scene V ω, s.core = k → (x.run s).1 = a ∧ (x.run s).2.core = k'

/-! ## Rules for sequences -/

theorem gives_pure (a : α) (k : Core V ω) : Gives (pure a) k a k := fun _ h => ⟨rfl, h⟩

theorem Gives.bind {x : Act V ω α} {f : α → Act V ω β} {k k' k'' : Core V ω} {a : α} {b : β}
    (hx : Gives x k a k') (hf : Gives (f a) k' b k'') : Gives (x >>= f) k b k'' := by
  intro s hs
  obtain ⟨ha, hk⟩ := hx s hs
  have hb := hf _ hk
  rwa [← ha] at hb

/-- A step that reads the scene may use what it reads. -/
theorem gives_state_bind {f : Scene V ω → Act V ω β} {k k' : Core V ω} {b : β}
    (hf : ∀ s, s.core = k → Gives (f s) k b k') : Gives (MonadState.get >>= f) k b k' :=
  fun s hs => hf s hs s hs

theorem open_of_core {s : Scene V ω} {k : Core V ω} (hs : s.core = k) (hk : k.closed = false) :
    ¬ s.pod.closed = true := by
  rw [show s.pod.closed = k.closed from congrArg Core.closed hs, hk]
  decide

theorem closed_of_core {s : Scene V ω} {k : Core V ω} (hs : s.core = k) (hk : k.closed = true) :
    s.pod.closed = true :=
  (congrArg Core.closed hs).trans hk

/-! ## Steps that leave the core alone -/

theorem gives_note (n : Note) (k : Core V ω) : Gives (note n) k () k := fun _ h => ⟨rfl, h⟩

theorem gives_count (f : Stats → Stats) (k : Core V ω) : Gives (count f) k () k :=
  fun _ h => ⟨rfl, h⟩

theorem gives_log (entry : LogEntry) (k : Core V ω) : Gives (log entry) k () k := by
  refine gives_state_bind fun s _ => ?_
  split_ifs
  · exact gives_note _ k
  · exact gives_pure () k

theorem gives_report (e : Error) (k : Core V ω) : Gives (report e) k () k := by
  refine gives_state_bind fun s _ => ?_
  split_ifs
  · exact gives_note _ k
  · exact gives_pure () k

/-! ## Steps that change the core -/

theorem gives_localGet (key : String) (k : Core V ω) :
    Gives (localGet key) k (k.localCache.contents key) (k.look key) := by
  rintro s rfl
  exact ⟨LocalCache.get_fst s.pod.localCache key, rfl⟩

theorem gives_localSet (key : String) (value : V) (k : Core V ω) :
    Gives (localSet key value) k () (k.keep key value) := by
  rintro s rfl
  exact ⟨rfl, rfl⟩

theorem gives_localDelete (key : String) (k : Core V ω) :
    Gives (localDelete key) k () (k.forget key) := by
  rintro s rfl
  exact ⟨rfl, rfl⟩

theorem gives_localClear (k : Core V ω) : Gives localClear k () k.forgetAll := by
  rintro s rfl
  exact ⟨rfl, rfl⟩

theorem gives_transformEvent (transform : Transform V) (e : Event) (k : Core V ω) :
    Gives (transformEvent transform e) k (transform k.transformed e) (k.saw e) := by
  rintro s rfl
  exact ⟨rfl, rfl⟩

theorem gives_requestWithin (services : Services ω) (r : Request) (k : Core V ω) :
    Gives (requestWithin services r) k (k.answer services r) (k.asked services r) := by
  rintro s rfl
  exact ⟨rfl, rfl⟩

theorem gives_request (services : Services ω) (r : Request) (k : Core V ω) :
    Gives (request services r) k (services.wait r k.world).1 (k.awaited services r) := by
  rintro s rfl
  exact ⟨rfl, rfl⟩

theorem gives_localClose (k : Core V ω) : Gives localClose k () k.forgetForGood := by
  rintro s rfl
  exact ⟨rfl, rfl⟩

theorem gives_shut (k : Core V ω) :
    Gives (change fun p => { p with closed := true }) k () k.shut := by
  rintro s rfl
  exact ⟨rfl, rfl⟩

end Pod

end PodCache
