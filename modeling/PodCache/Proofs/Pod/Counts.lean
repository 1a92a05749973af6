import PodCache.Codec.Binary
import PodCache.Pod.Builder
import PodCache.Pod.Fault
import PodCache.Proofs.Bus.Delivery
import PodCache.Proofs.Local.Accounting
import PodCache.Proofs.Pod.Closed

/-!
# The counts of pods

A pod counts its lookups, where they were answered, and the events that made it drop entries.
Whatever happens to it and whatever fails on the way, these counts agree with what it was asked and
told, with one another, and with those of its local cache, and none of them ever goes back.
-/

namespace PodCache

variable {V ω : Type}

/-- No counter is higher than in another state. -/
structure Stats.AtMost (s t : Stats) : Prop where
  localHits : s.localHits ≤ t.localHits
  localMisses : s.localMisses ≤ t.localMisses
  remoteHits : s.remoteHits ≤ t.remoteHits
  remoteMisses : s.remoteMisses ≤ t.remoteMisses
  invalidations : s.invalidations ≤ t.invalidations

theorem Stats.AtMost.refl (s : Stats) : s.AtMost s := by constructor <;> exact le_rfl

theorem Stats.AtMost.trans {s t u : Stats} (h : s.AtMost t) (h' : t.AtMost u) : s.AtMost u where
  localHits := h.localHits.trans h'.localHits
  localMisses := h.localMisses.trans h'.localMisses
  remoteHits := h.remoteHits.trans h'.remoteHits
  remoteMisses := h.remoteMisses.trans h'.remoteMisses
  invalidations := h.invalidations.trans h'.invalidations

/-- Whether an event asks its receivers to drop entries. -/
def Event.drops (e : Event) : Bool :=
  match e.action with
  | .invalidate | .delete | .clear => true
  | .set | .unknown _ => false

/-! ## What may happen to a pod -/

namespace Pod

/-- What a pod does about something that happens on its synchronizer. -/
def react : Occurrence Unit → Act V ω Unit
  | .event () e => handleEvent e
  | .failure () e => report e
  | .undecodable _ | .lagged _ => pure ()

/-- What a pod does about a payload that its synchronizer takes. -/
def receive (payload : Bytes) : Act V ω Unit := do
  let instanceId := (← MonadState.get).pod.settings.instanceId
  ((Listeners.ofPod instanceId).dispatchBytes payload).1.forM react

end Pod

/-- Something that happens to a pod.  The services may respond otherwise each time. -/
inductive Occasion (V ω : Type) where
  | start (services : Services ω) (w : ω)
  | call (services : Services ω) (w : ω) (op : Operation V)
  | receive (w : ω) (payload : Bytes)
  | maintain

namespace Occasion

/-- The lookups that an open pod is asked for. -/
def lookups (p : Pod V) : Occasion V ω → Nat
  | .call _ _ (.get _) => if p.closed then 0 else 1
  | _ => 0

/-- The events of peers that ask an open pod to drop entries. -/
def drops (p : Pod V) : Occasion V ω → Nat
  | .call _ _ (.handle e) => if p.closed = false ∧ e.drops then 1 else 0
  | .receive _ payload =>
    ((Event.heardBy p.settings.instanceId payload).toList.countP fun e =>
      p.closed = false ∧ e.drops)
  | _ => 0

end Occasion

namespace Pod

/-- The pod after something has happened. -/
def on (p : Pod V) : Occasion V ω → Pod V
  | .start services w => ((start services).run ⟨p, w, []⟩).2.pod
  | .call services w op => ((op.perform services).run ⟨p, w, []⟩).2.pod
  | .receive w payload => ((receive payload).run ⟨p, w, []⟩).2.pod
  | .maintain => p.maintain

/-- The pod after a history. -/
def after (p : Pod V) (history : List (Occasion V ω)) : Pod V := history.foldl on p

/-- The sum over a history of what each occasion counts in the pod that it finds. -/
def total (count : Pod V → Occasion V ω → Nat) (p : Pod V) : List (Occasion V ω) → Nat
  | [] => 0
  | o :: history => count p o + total count (p.on o) history

/-! ## Counts that agree -/

/-- The counters agree with one another and with those of the local cache. -/
structure Balanced (p : Pod V) : Prop where
  sound : ∃ kind config, p.localCache.Sound config kind
  hits : p.stats.localHits = p.localCache.metrics.hits
  misses : p.stats.localMisses = p.localCache.metrics.misses
  remote : p.stats.localMisses = p.stats.remoteHits + p.stats.remoteMisses

variable {services : Services ω} {p p' p'' : Pod V} {w w' : ω} {ds : List Note} {m m' n n' : Nat}

/-- A request to the local cache that is counted as the local cache counts it. -/
theorem Balanced.serve (h : p.Balanced) (r : LocalRequest V)
    (hc : p'.localCache = p.localCache.serve r)
    (hh : p'.stats.localHits = p.stats.localHits + p.localCache.found r)
    (hm : p'.stats.localMisses = p.stats.localMisses + p.localCache.missed r)
    (hr : p'.stats.localMisses = p'.stats.remoteHits + p'.stats.remoteMisses) : p'.Balanced := by
  obtain ⟨kind, config, hs⟩ := h.sound
  obtain ⟨hhits, hmisses⟩ := LocalCache.lookups_serve hs r
  refine ⟨⟨kind, config, hc ▸ hs.serve r⟩, ?_, ?_, hr⟩
  · rw [hh, hc, hhits, h.hits]
  · rw [hm, hc, hmisses, h.misses]

/-- What a number of lookups and a number of events that drop entries add to the counters, while the
local cache serves requests and the settings stay as they are. -/
structure Adds (p p' : Pod V) (lookups drops : Nat) : Prop where
  lookups : p'.stats.localHits + p'.stats.localMisses =
    p.stats.localHits + p.stats.localMisses + lookups
  drops : p'.stats.invalidations = p.stats.invalidations + drops
  grows : p.stats.AtMost p'.stats
  balanced : p.Balanced → p'.Balanced
  served : ∃ rs, p'.localCache = p.localCache.run rs
  settings : p'.settings = p.settings

theorem Adds.trans (h : p.Adds p' m n) (h' : p'.Adds p'' m' n') : p.Adds p'' (m + m') (n + n') where
  lookups := by rw [h'.lookups, h.lookups, Nat.add_assoc]
  drops := by rw [h'.drops, h.drops, Nat.add_assoc]
  grows := h.grows.trans h'.grows
  balanced hb := h'.balanced (h.balanced hb)
  served := by
    obtain ⟨rs, hrs⟩ := h.served
    obtain ⟨rs', hrs'⟩ := h'.served
    exact ⟨rs ++ rs', by rw [hrs', hrs, LocalCache.run, LocalCache.run, LocalCache.run,
      List.foldl_append]⟩
  settings := h'.settings.trans h.settings

/-- Where neither the counters nor the local cache change, nothing is added. -/
theorem adds_of_same (hc : p'.localCache = p.localCache) (hs : p'.stats = p.stats)
    (hset : p'.settings = p.settings) : p.Adds p' 0 0 := by
  refine ⟨by rw [hs, Nat.add_zero], by rw [hs, Nat.add_zero], hs ▸ .refl _, fun hb => ?_, ⟨[], hc⟩,
    hset⟩
  exact ⟨hc ▸ hb.sound, by rw [hs, hc, hb.hits], by rw [hs, hc, hb.misses], by rw [hs, hb.remote]⟩

/-- Requests other than lookups count as neither hits nor misses. -/
theorem found_missed_eq_zero {r : LocalRequest V} (hr : r.isGet = false) (c : LocalCache V) :
    c.found r = 0 ∧ c.missed r = 0 := by
  cases r with
  | get key => cases hr
  | set | delete | clear | close | maintain => exact ⟨rfl, rfl⟩

/-- Requests to the local cache other than lookups add only what is counted on their account. -/
theorem adds_of_serve (r : LocalRequest V) (hr : r.isGet = false)
    (hc : p'.localCache = p.localCache.serve r)
    (hs : p'.stats = { p.stats with invalidations := p.stats.invalidations + n })
    (hset : p'.settings = p.settings) : p.Adds p' 0 n := by
  obtain ⟨hfound, hmissed⟩ := found_missed_eq_zero hr p.localCache
  refine ⟨by rw [hs, Nat.add_zero], by rw [hs], ?_, fun hb => hb.serve r hc ?_ ?_ ?_,
    ⟨[r], hc⟩, hset⟩
  · rw [hs]
    exact ⟨le_rfl, le_rfl, le_rfl, le_rfl, Nat.le_add_right _ _⟩
  · rw [hs, hfound, Nat.add_zero]
  · rw [hs, hmissed, Nat.add_zero]
  · rw [hs]
    exact hb.remote

theorem adds_kept (p : Pod V) (key : String) (value : V) : p.Adds (p.kept key value) 0 0 :=
  adds_of_serve (.set key value (p.cost key value)) rfl rfl rfl rfl

theorem adds_maintain (p : Pod V) : p.Adds p.maintain 0 0 := adds_of_serve .maintain rfl rfl rfl rfl

theorem adds_onPod (p : Pod V) (x : Write V) : p.Adds (x.onPod p) 0 0 := by
  cases x with
  | set announcement key value => exact p.adds_kept key value
  | delete key => exact adds_of_serve (.delete key) rfl rfl rfl rfl
  | clear => exact adds_of_serve .clear rfl rfl rfl rfl

/-- A lookup that the local cache answers. -/
theorem adds_hit {key : String} {value : V} (h : p.localCache.contents key = some value) :
    p.Adds (p.looked key fun s => { s with localHits := s.localHits + 1 }) 1 0 := by
  have hfound : p.localCache.found (.get key) = 1 := by rw [LocalCache.found, h]; rfl
  have hmissed : p.localCache.missed (.get key) = 0 := by rw [LocalCache.missed, h]; rfl
  refine ⟨Nat.add_right_comm _ _ _, rfl, ⟨Nat.le_succ _, le_rfl, le_rfl, le_rfl, le_rfl⟩,
    fun hb => hb.serve (.get key) rfl ?_ ?_ hb.remote, ⟨[.get key], rfl⟩, rfl⟩
  · rw [hfound]; rfl
  · rw [hmissed]; rfl

/-- A lookup that the store answers, or fails to. -/
theorem adds_miss (found missed : Nat) {key : String} {f : Stats → Stats}
    (h : p.localCache.contents key = none)
    (hf : ∀ s, f s = { s with
      remoteHits := s.remoteHits + found
      remoteMisses := s.remoteMisses + missed }) (hone : found + missed = 1) :
    p.Adds ((p.looked key fun s => { s with localMisses := s.localMisses + 1 }).counted f) 1 0 := by
  have hfound : p.localCache.found (.get key) = 0 := by rw [LocalCache.found, h]; rfl
  have hmissed : p.localCache.missed (.get key) = 1 := by rw [LocalCache.missed, h]; rfl
  unfold counted
  rw [hf]
  refine ⟨(Nat.add_assoc _ _ _).symm, rfl, ?_, fun hb => hb.serve (.get key) rfl ?_ ?_ ?_,
    ⟨[.get key], rfl⟩, rfl⟩
  · exact ⟨le_rfl, Nat.le_succ _, Nat.le_add_right _ _, Nat.le_add_right _ _, le_rfl⟩
  · rw [hfound]; rfl
  · rw [hmissed]; rfl
  · have hremote := hb.remote
    dsimp only [looked]
    omega

theorem adds_of_looks {key : String} {found : Option V}
    (h : Looks services p w key found p' w' ds) : p.Adds p' 1 0 := by
  cases h with
  | hit h => exact adds_hit h
  | miss h hf =>
    cases hf with
    | missing | failed => exact adds_miss 0 1 h (fun _ => rfl) rfl
    | undecodable => exact adds_miss 1 0 h (fun _ => rfl) rfl
    | found =>
      exact (adds_miss 1 0 h (fun _ => rfl) rfl).trans (adds_kept _ key _)

theorem adds_of_hears {e : Event} (h : Hears p e p' ds) :
    p.Adds p' 0 (if e.drops then 1 else 0) := by
  have hsaw : p.Adds (p.saw e) 0 0 := adds_of_same rfl rfl rfl
  unfold Event.drops
  cases h with
  | blank ha | undecodable ha | unknown ha =>
    rw [ha]
    exact adds_of_same rfl rfl rfl
  | skipped ha =>
    rw [ha]
    exact hsaw
  | transformed ha =>
    rw [ha]
    exact hsaw.trans (adds_kept (p.saw e) e.key _)
  | decoded ha =>
    rw [ha]
    exact adds_kept p e.key _
  | dropped ha =>
    rcases ha with ha | ha <;> rw [ha] <;> exact adds_of_serve (.delete e.key) rfl rfl rfl rfl
  | cleared ha =>
    rw [ha]
    exact adds_of_serve .clear rfl rfl rfl rfl

/-! ## Occasions -/

theorem adds_handleEvent (p : Pod V) (w : ω) (notes : List Note) (e : Event) :
    p.Adds ((handleEvent e).run ⟨p, w, notes⟩).2.pod 0
      (if p.closed = false ∧ e.drops then 1 else 0) := by
  cases ho : p.closed with
  | true =>
    have hrun : (handleEvent e).run ⟨p, w, notes⟩ = ((), ⟨p, w, notes⟩) := run_of_closed ho () _
    rw [hrun, if_neg (by simp)]
    exact adds_of_same rfl rfl rfl
  | false =>
    obtain ⟨p', ds, hpath, hdoes⟩ := does_handleEvent (ω := ω) ho e
    obtain ⟨-, hpod, -⟩ := Does.deeds (s := ⟨p, w, notes⟩) (hdoes w)
    rw [hpod]
    simpa using adds_of_hears hpath

/-- Of what happens on the synchronizer, only the event that the pod hears concerns it. -/
theorem on_receive (p : Pod V) (w : ω) (payload : Bytes) :
    p.on (.receive w payload) =
      match Event.heardBy p.settings.instanceId payload with
      | some e => ((handleEvent e).run ⟨p, w, []⟩).2.pod
      | none => p := by
  show ((((Listeners.ofPod p.settings.instanceId).dispatchBytes payload).1.forM react).run
    ⟨p, w, []⟩).2.pod = _
  unfold Listeners.dispatchBytes Event.heardBy
  rcases Event.decode payload with failure | e
  · have hdoes : Does ([.undecodable failure, .failure () failure].forM react) p w () p w _ :=
      (does_pure () p w).bind ((does_report failure p w).returns ())
    obtain ⟨-, hpod, -⟩ := Does.deeds (s := ⟨p, w, []⟩) hdoes
    exact hpod
  · dsimp only
    unfold Listeners.dispatch
    by_cases hs : e.sender = p.settings.instanceId
    · rw [if_pos hs, if_pos (show e.sender = (Listeners.ofPod _).instanceId from hs)]
      rfl
    · rw [if_neg hs, if_neg (show ¬ e.sender = (Listeners.ofPod _).instanceId from hs)]
      rfl

theorem adds_receive (p : Pod V) (w : ω) (payload : Bytes) :
    p.Adds (p.on (.receive w payload)) 0
      ((Event.heardBy p.settings.instanceId payload).toList.countP fun e =>
        p.closed = false ∧ e.drops) := by
  rw [on_receive]
  cases Event.heardBy p.settings.instanceId payload with
  | none => exact adds_of_same rfl rfl rfl
  | some e =>
    have heard := adds_handleEvent p w [] e
    rw [Option.toList_some, List.countP_singleton]
    simp only [decide_eq_true_eq]
    exact heard

theorem scene_of_closed (services : Services ω) {s : Scene V ω} (h : s.pod.closed = true)
    (op : Operation V) : ((op.perform services).run s).2 = s := by
  cases op with
  | get key => exact congrArg Prod.snd (run_map Answer.value (run_of_closed h none _))
  | write x =>
    cases x with
    | set | delete | clear =>
      exact congrArg Prod.snd
        (run_map Answer.result (run_of_closed h (Except.error Error.closed) _))
  | close => exact congrArg Prod.snd (run_map Answer.result (run_of_closed h (Except.ok ()) _))
  | stats => rfl
  | handle e => exact congrArg Prod.snd (run_map (fun _ => Answer.done) (run_of_closed h () _))

theorem adds_call (services : Services ω) (p : Pod V) (w : ω) (op : Operation V) :
    p.Adds (p.on (.call services w op)) ((Occasion.call services w op).lookups p)
      ((Occasion.call services w op).drops p) := by
  show p.Adds ((op.perform services).run ⟨p, w, []⟩).2.pod _ _
  cases ho : p.closed with
  | true =>
    rw [scene_of_closed services ho op]
    cases op <;> simp only [Occasion.lookups, Occasion.drops, ho] <;> exact adds_of_same rfl rfl rfl
  | false =>
    cases op with
    | get key =>
      obtain ⟨found, p', w', ds, hpath, hdoes⟩ := does_get services ho w key
      obtain ⟨-, hpod, -⟩ := Does.deeds (s := ⟨p, w, []⟩) (hdoes.map Answer.value)
      rw [Operation.perform, hpod, Occasion.lookups, ho]
      exact adds_of_looks hpath
    | write x =>
      obtain ⟨result, w', ds, -, hdoes⟩ := does_perform services ho w x
      obtain ⟨-, hpod, -⟩ := Does.deeds (s := ⟨p, w, []⟩) (hdoes.map Answer.result)
      rw [Operation.perform, hpod]
      exact adds_onPod p x
    | close =>
      obtain ⟨-, hpod, -⟩ :=
        Does.deeds (s := ⟨p, w, []⟩) ((does_close services w ho).map Answer.result)
      rw [Operation.perform, hpod]
      exact adds_of_serve .close rfl rfl rfl rfl
    | stats => exact adds_of_same rfl rfl rfl
    | handle e => exact adds_handleEvent p w [] e

theorem adds_start (services : Services ω) (p : Pod V) (w : ω) :
    p.Adds (p.on (.start services w)) 0 0 := by
  show p.Adds ((start services).run ⟨p, w, []⟩).2.pod _ _
  rcases h : services.waitWithin p.settings.timeout .subscribe w with ⟨e | bytes, w'⟩
  · obtain ⟨-, hpod, -⟩ := Does.deeds (s := ⟨p, w, []⟩) (does_start_of_error p h)
    rw [hpod]
    exact adds_of_serve .close rfl rfl rfl rfl
  · obtain ⟨-, hpod, -⟩ := Does.deeds (s := ⟨p, w, []⟩) (does_start p h)
    rw [hpod]
    exact adds_of_same rfl rfl rfl

theorem adds_on (p : Pod V) (o : Occasion V ω) : p.Adds (p.on o) (o.lookups p) (o.drops p) := by
  cases o with
  | start services w => exact adds_start services p w
  | call services w op => exact adds_call services p w op
  | receive w payload => exact p.adds_receive w payload
  | maintain => exact p.adds_maintain

/-- What a history adds to the counters is what each of its occasions adds. -/
theorem adds_after (p : Pod V) (history : List (Occasion V ω)) :
    p.Adds (p.after history) (total Occasion.lookups p history)
      (total Occasion.drops p history) := by
  induction history generalizing p with
  | nil => exact adds_of_same rfl rfl rfl
  | cons o history ih => exact (p.adds_on o).trans (ih (p.on o))

/-! ## Main result -/

/-- The counters of a pod after a history, if they were zero before. -/
structure Counted (p : Pod V) (history : List (Occasion V ω)) : Prop where
  /-- Hits and misses together are the lookups while the pod was open. -/
  lookups : (p.after history).stats.localHits + (p.after history).stats.localMisses =
    total Occasion.lookups p history
  /-- The store answers each local miss, or fails to. -/
  remote : (p.after history).stats.localMisses =
    (p.after history).stats.remoteHits + (p.after history).stats.remoteMisses
  /-- The local cache counts the same. -/
  hits : (p.after history).stats.localHits = (p.after history).localCache.metrics.hits
  misses : (p.after history).stats.localMisses = (p.after history).localCache.metrics.misses
  /-- Events that ask an open pod to drop entries are counted, and no others. -/
  invalidations : (p.after history).stats.invalidations = total Occasion.drops p history
  /-- Whatever happens next, no counter goes back. -/
  grows : ∀ later : List (Occasion V ω),
    (p.after history).stats.AtMost ((p.after history).after later).stats

theorem balanced_of_new {chance : Chance} {kind : LocalCache.Kind} {config : LocalConfig}
    {p : Pod V} (hc : LocalCache.new chance kind config = .ok p.localCache) (hs : p.stats = {}) :
    p.Balanced := by
  have hmetrics := LocalCache.metrics_new hc
  refine ⟨⟨kind, config, LocalCache.sound_new hc⟩, ?_, ?_, ?_⟩
  · rw [hs, hmetrics]
  · rw [hs, hmetrics]
  · rw [hs]
    rfl

theorem counted_of_new {chance : Chance} {kind : LocalCache.Kind} {config : LocalConfig}
    {p : Pod V} (hc : LocalCache.new chance kind config = .ok p.localCache) (hs : p.stats = {})
    (history : List (Occasion V ω)) : p.Counted history := by
  have hadds := p.adds_after history
  have hbalanced := hadds.balanced (balanced_of_new hc hs)
  refine ⟨?_, hbalanced.remote, hbalanced.hits, hbalanced.misses, ?_, fun later => ?_⟩
  · rw [hadds.lookups, hs, Nat.zero_add, Nat.zero_add]
  · rw [hadds.drops, hs, Nat.zero_add]
  · exact ((p.after history).adds_after later).grows

/-- A lookup while the store is down, a value that is set and found, an event of a peer, one of the
pod's own, and a lookup and an event that come too late. -/
theorem counted_of_new_while_store_is_down :
    let b : Builder Bool := { instanceId := "a", codec := .binary .bool }
    let services : Services Unit := .disturbed
      (Faults.none.set .storeGet { failure := some (.store "down") }) fun _ _ => ⟨0, .ok [], ()⟩
    let history : List (Occasion Bool Unit) :=
      [.start services (), .call services () (.get "k"),
        .call services () (.write (.set .value "k" true)), .call services () (.get "k"),
        .receive () (Event.invalidate "k" "b").encode, .receive () (Event.clear "a").encode,
        .call services () (.handle (.clear "b")), .maintain, .call services () .close,
        .call services () (.get "k"), .receive () (Event.delete "k" "b").encode]
    ∃ p, b.pod Chance.standard "a" defaultChannel = .ok p ∧
      LocalCache.new Chance.standard .frequency b.localConfig = .ok p.localCache ∧ p.stats = {} ∧
      p.Counted history ∧
      (p.after history).stats =
        { localHits := 1, localMisses := 1, remoteMisses := 1, invalidations := 2 } :=
  ⟨_, rfl, rfl, rfl,
    counted_of_new (show LocalCache.new Chance.standard .frequency {} = .ok _ from rfl) rfl _,
    by decide +kernel⟩

end Pod

end PodCache
