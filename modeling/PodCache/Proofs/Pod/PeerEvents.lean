import PodCache.Codec.Binary
import PodCache.Proofs.Local.Accounting
import PodCache.Proofs.Pod.Deeds

/-!
# Events in turn

What the events of peers make of a map, one after another, is a fold (`Settings.heed`).  An open pod
whose local cache has room for all keys makes the same of its local contents, and calls the
transform and the error handler as the events ask for, and not otherwise (`heeded_of_room`).
-/

namespace PodCache

variable {V ω : Type}

/-! ## Sets that evict nothing -/

namespace LocalCache

variable {c : LocalCache V} {config : LocalConfig} {keys : List String} {key : String}

/-- A recency cache that has room for some keys, and has no others. -/
structure Roomy (config : LocalConfig) (keys : List String) (c : LocalCache V) : Prop where
  sound : c.Sound config .recency
  length_le : keys.length ≤ config.maxSize.toNat
  keys_sub : c.keys ⊆ keys

theorem Roomy.serve (h : c.Roomy config keys) (r : LocalRequest V)
    (hr : ∀ key, ((c.serve r).contents key).isSome → key ∈ keys) :
    (c.serve r).Roomy config keys :=
  ⟨h.sound.serve r, h.length_le,
    fun key hmem => hr key ((mem_keys_iff (h.sound.serve r) key).1 hmem)⟩

/-- A key for which there is room gets its value, and no other key loses its own. -/
theorem Roomy.contents_set (h : c.Roomy config keys) (hk : key ∈ keys) (value : V) (cost : Nat) :
    (c.set key value cost).2.contents = c.contents.put key value := by
  obtain ⟨hsound, hle, hsub⟩ := h
  cases hsound with
  | @recency c pos sound =>
    have hpush := sound.holds.pushFront key value 1
    have hkeys : (⟨key, value, 1⟩ :: RecencyList.without c.entries key).map Entry.key ⊆ keys := by
      rw [List.map_cons, List.cons_subset]
      exact ⟨hk, List.Subset.trans (List.map_subset _ (List.filter_subset_self _)) hsub⟩
    have hroom : (c.list.pushFront key value 1).2.size ≤ c.maxSize := by
      rw [hpush.size_eq, sound.maxSize_eq, ← List.length_map]
      exact (hpush.nodup.subperm hkeys).length_le.trans hle
    show (c.set key value).list.contents = c.list.contents.put key value
    rw [RecencyCache.set, RecencyCache.evictOverflow, if_neg (not_lt.2 hroom)]
    exact c.list.contents_pushFront key value 1

theorem Roomy.set (h : c.Roomy config keys) (hk : key ∈ keys) (value : V) (cost : Nat) :
    (c.set key value cost).2.Roomy config keys := by
  refine h.serve (.set key value cost) fun k hsome => ?_
  rw [LocalCache.serve, h.contents_set hk, Contents.put_apply] at hsome
  split_ifs at hsome with heq
  · exact heq ▸ hk
  · exact h.keys_sub ((mem_keys_iff h.sound k).2 hsome)

theorem Roomy.delete (h : c.Roomy config keys) (key : String) :
    (c.delete key).Roomy config keys := by
  refine h.serve (.delete key) fun k hsome => ?_
  rw [LocalCache.serve, contents_delete, Contents.erase_apply] at hsome
  split_ifs at hsome
  · cases hsome
  · exact h.keys_sub ((mem_keys_iff h.sound k).2 hsome)

theorem Roomy.clear (h : c.Roomy config keys) : c.clear.Roomy config keys := by
  refine h.serve .clear fun k hsome => ?_
  rw [LocalCache.serve, contents_clear] at hsome
  cases hsome

end LocalCache

/-! ## What events ask for -/

namespace Settings

/-- A map after an event.  The transform may decide by the events that it has decided on before,
which come with the map. -/
def heed (settings : Settings V) (state : Contents V × List Event) (e : Event) :
    Contents V × List Event :=
  let (m, decided) := state
  match e.action with
  | .set =>
    if e.payload = [] then (m, decided)
    else
      match settings.transform with
      | some transform =>
        match transform decided e with
        | some value => (m.put e.key value, e :: decided)
        | none => (m, e :: decided)
      | none =>
        match settings.codec.decode e.payload with
        | .ok value => (m.put e.key value, decided)
        | .error _ => (m, decided)
  | .invalidate | .delete => (m.erase e.key, decided)
  | .clear => (.empty, decided)
  | .unknown _ => (m, decided)

/-- The calls of the transform and of the error handler that an event asks for: a value that is not
empty is put to the transform, and without a transform it is reported unless it can be read. -/
def callbacks (settings : Settings V) (e : Event) : List Note :=
  if e.action = .set ∧ e.payload ≠ [] then
    if settings.transform.isSome then [.transformed e.key]
    else settings.reports (failureOf (settings.codec.decode e.payload))
  else []

end Settings

/-- Whether a note is about the local cache. -/
def Note.isLocal : Note → Bool
  | .localGet .. | .localSet .. | .localDelete _ | .localClear | .localClose => true
  | _ => false

/-- What a pod has done outside its local cache. -/
def Scene.calls (s : Scene V ω) : List Note := s.deeds.filter fun n => !n.isLocal

namespace Pod

variable {p p' : Pod V} {config : LocalConfig} {keys : List String} {ds : List Note} {e : Event}

theorem filter_reports (settings : Settings V) (es : List Error) :
    (settings.reports es).filter (fun n => !n.isLocal) = settings.reports es := by
  unfold Settings.reports
  split_ifs
  · rw [List.filter_eq_self]
    intro n hn
    obtain ⟨e, -, rfl⟩ := List.mem_map.1 hn
    rfl
  · rfl

/-- A pod that hears an event with room for its key heeds it. -/
theorem Hears.heeds (h : Hears p e p' ds) (hroom : p.localCache.Roomy config keys)
    (hk : e.action = .set → e.key ∈ keys) :
    (p'.localCache.contents, p'.transformed) =
        p.settings.heed (p.localCache.contents, p.transformed) e ∧
      ds.filter (fun n => !n.isLocal) = p.settings.callbacks e ∧
      p'.localCache.Roomy config keys := by
  unfold Settings.heed Settings.callbacks
  cases h with
  | blank ha hp => simp [ha, hp, hroom]
  | skipped ha hp ht hv => simp [ha, hp, ht, hv, hroom, saw, Note.isLocal]
  | transformed ha hp ht hv =>
    have hset := hroom.contents_set (hk ha)
    have hroom' := hroom.set (hk ha)
    simp [ha, hp, ht, hv, hset, hroom', saw, kept, keeping, Note.isLocal]
  | undecodable ha hp ht hv =>
    simp [ha, hp, ht, hv, hroom, failureOf, filter_reports]
  | decoded ha hp ht hv =>
    have hset := hroom.contents_set (hk ha)
    have hroom' := hroom.set (hk ha)
    simp [ha, hp, ht, hv, hset, hroom', failureOf, kept, keeping, Note.isLocal]
  | dropped ha =>
    have hroom' := hroom.delete e.key
    rcases ha with ha | ha <;> simp [ha, hroom', Note.isLocal]
  | cleared ha =>
    have hroom' := hroom.clear
    simp [ha, hroom', Note.isLocal]
  | unknown ha => simp [ha, hroom]

/-! ## Events in turn -/

/-- Takes notice of the events of peers, one after another. -/
def handleAll (es : List Event) : Act V ω Unit := es.forM handleEvent

/-- What comes of the events that a pod takes notice of. -/
structure Heeded (es : List Event) (s s' : Scene V ω) : Prop where
  /-- The local contents are those that the events make of the contents before. -/
  contents : (s'.pod.localCache.contents, s'.pod.transformed) =
    es.foldl s.pod.settings.heed (s.pod.localCache.contents, s.pod.transformed)
  /-- The transform and the error handler are called as the events ask for, and nothing else is
  called. -/
  calls : s'.calls = s.calls ++ es.flatMap s.pod.settings.callbacks
  settings : s'.pod.settings = s.pod.settings
  closed : s'.pod.closed = s.pod.closed
  world : s'.world = s.world

theorem heeded_of_roomy {es : List Event} {s : Scene V ω} (ho : s.pod.closed = false)
    (hroom : s.pod.localCache.Roomy config keys)
    (hk : ∀ e ∈ es, e.action = .set → e.key ∈ keys) :
    Heeded es s ((handleAll es).run s).2 := by
  induction es generalizing s with
  | nil => exact ⟨rfl, (List.append_nil _).symm, rfl, rfl, rfl⟩
  | cons e es ih =>
    rw [List.forall_mem_cons] at hk
    obtain ⟨p', ds, hpath, hdoes⟩ := does_handleEvent (ω := ω) ho e
    obtain ⟨-, hpod, hworld, hdeeds⟩ := (hdoes s.world).deeds
    obtain ⟨hheed, hcalls, hroom'⟩ := hpath.heeds hroom hk.1
    obtain ⟨hsettings, hclosed⟩ := hpath.frame
    show Heeded (e :: es) s ((handleAll es).run ((handleEvent e).run s).2).2
    generalize ((handleEvent e).run s).2 = first at hpod hworld hdeeds
    subst hpod
    obtain ⟨contents, calls, settings, closed, world⟩ := ih (hclosed.trans ho) hroom' hk.2
    refine ⟨?_, ?_, settings.trans hsettings, closed.trans hclosed, world.trans hworld⟩
    · rw [contents, hheed, hsettings, List.foldl_cons]
    · rw [calls, hsettings, List.flatMap_cons, ← List.append_assoc]
      rw [Scene.calls, hdeeds, List.filter_append, hcalls]
      rfl

/-- An open pod with a recency cache that has room for its keys and those of the events that set
something makes of its local contents, after whatever requests, what the events make of any map. -/
theorem heeded_of_room {chance : Chance} {c : LocalCache V} {rs : List (LocalRequest V)}
    {es : List Event} {s : Scene V ω} (ho : s.pod.closed = false)
    (hc : LocalCache.new chance .recency config = .ok c) (hs : s.pod.localCache = c.run rs)
    (hle : keys.length ≤ config.maxSize.toNat)
    (hres : ∀ key, (s.pod.localCache.contents key).isSome → key ∈ keys)
    (hk : ∀ e ∈ es, e.action = .set → e.key ∈ keys) :
    Heeded es s ((handleAll es).run s).2 := by
  have hsound : s.pod.localCache.Sound config .recency := hs ▸ LocalCache.sound_run hc rs
  have hroom : s.pod.localCache.Roomy config keys :=
    ⟨hsound, hle, fun key hmem => hres key ((LocalCache.mem_keys_iff hsound key).1 hmem)⟩
  exact heeded_of_roomy ho hroom hk

/-- Values that are announced, one for the key `*` among them, one that cannot be read, an empty
one, a value on an event that drops its key, and an action of a later version. -/
theorem heeded_of_room_with_unreadable_value :
    let settings : Settings Bool :=
      { instanceId := "a", codec := .binary .bool, timeout := .seconds 5, writeThrough := false,
        hasHandler := true, transform := none, weigher := none, debug := false }
    let c : LocalCache Bool := .recency ⟨.empty, 2, 0, 0, 0⟩
    let s : Scene Bool Unit :=
      { pod := { settings, localCache := c.run [.set "k" false 1] }, world := () }
    let events : List Event :=
      [.set "k" "b" [1], .set "*" "b" [0], .set "k" "b" [7], .set "k" "b" [],
        ⟨"k", "b", .unknown "touch", some [0]⟩, ⟨"*", "b", .delete, some [1]⟩]
    let s' := ((handleAll events).run s).2
    s.pod.closed = false ∧ LocalCache.new Chance.standard .recency { maxSize := 2 } = .ok c ∧
      (∀ key, (s.pod.localCache.contents key).isSome → key ∈ ["k", "*"]) ∧
      (∀ e ∈ events, e.action = .set → e.key ∈ ["k", "*"]) ∧
      Heeded events s s' ∧ s'.pod.localCache.contents "k" = some true ∧
      s'.pod.localCache.contents "*" = none ∧
      s'.calls = [.reported (.deserialization "malformed value")] := by
  intro settings c s events s'
  have hc : LocalCache.new Chance.standard .recency { maxSize := 2 } = .ok c := rfl
  have hres (key : String) (h : (s.pod.localCache.contents key).isSome) : key ∈ ["k", "*"] := by
    have hmem : key ∈ s.pod.localCache.keys :=
      (LocalCache.mem_keys_iff (LocalCache.sound_run hc [.set "k" false 1]) key).2 h
    have hkeys : s.pod.localCache.keys = ["k"] := by decide +kernel
    rw [hkeys] at hmem
    exact List.mem_append_left ["*"] hmem
  have hk : ∀ e ∈ events, e.action = .set → e.key ∈ ["k", "*"] := by decide
  exact ⟨rfl, hc, hres, hk, heeded_of_room rfl hc rfl (by decide) hres hk, by decide +kernel,
    by decide +kernel, by decide +kernel⟩

end Pod

end PodCache
