import PodCache.Codec.Binary
import PodCache.Pod.Fault
import PodCache.Proofs.Pod.Deeds

/-!
# Operations whose services fail

The codec may fail to write a value, the store may refuse a write or a lookup, and the peers may not
be reached; each may also take too long.  A write has its local effect in any case, and first; it is
told to the peers only when the store has taken it, if it goes there, and only the codec and the
store make it fail (`Write.CarriedOut`).  A lookup that gives nothing leaves the local contents as
they were (`LookedUp`).  Every failure is reported, and each once.
-/

namespace PodCache

variable {V ω : Type}

namespace Services

/-- The answers to requests that are sent one after another, each waited for within a time limit,
and the world that they leave. -/
def converse (services : Services ω) (limit : Duration) :
    List Request → ω → List (Except Error Bytes) × ω
  | [], w => ([], w)
  | r :: rs, w =>
    let (answer, w) := services.waitWithin limit r w
    let (answers, w) := services.converse limit rs w
    (answer :: answers, w)

/-- A request that fails has no effect. -/
def Inert (services : Services ω) : Prop :=
  ∀ r w e, (services r w).result = .error e → (services r w).world = w

variable {services : Services ω} {limit : Duration} {r : Request} {w w' : ω}

theorem Inert.waitWithin {e : Error} (h : services.Inert)
    (hs : services.waitWithin limit r w = (.error e, w')) : w' = w := by
  unfold Services.waitWithin at hs
  dsimp only at hs
  split_ifs at hs
  · obtain ⟨hresult, rfl⟩ := Prod.mk.inj hs
    exact h r w e hresult
  · exact (Prod.mk.inj hs).2.symm

end Services

/-! ## Writes -/

/-- What a write of an open pod comes to, whatever fails; `asked` are the requests that it sends. -/
structure Write.CarriedOut (services : Services ω) (x : Write V) (s : Scene V ω)
    (asked : List Request) (result : Except Error Unit) (s' : Scene V ω) : Prop where
  /-- The local effect is all that happens to the pod. -/
  pod : s'.pod = x.onPod s.pod
  /-- The local effect comes first, then the requests, and in the end each failure of the codec and
  of the services is reported once. -/
  deeds : s'.deeds = s.deeds ++ (x.deed s.pod :: asked.map .requested) ++
    s.pod.settings.reports (failureOf (x.verdict s.pod.settings.codec) ++
      (services.converse s.pod.settings.timeout asked s.world).1.flatMap failureOf)
  world : s'.world = (services.converse s.pod.settings.timeout asked s.world).2
  /-- A value that cannot be written goes nowhere. -/
  unencodable : ∀ e, x.verdict s.pod.settings.codec = .error e → result = .error e ∧ asked = []
  /-- What the store refuses is not told to the peers. -/
  refused : x.verdict s.pod.settings.codec = .ok () →
    x.ReachesStore s.pod.settings.writeThrough → ∀ e,
    (services.waitWithin s.pod.settings.timeout (x.request s.pod.settings.codec) s.world).1 =
      .error e → result = .error e ∧ asked = [x.request s.pod.settings.codec]
  /-- All else succeeds and is told to the peers, whether they are reached or not. -/
  succeeds : x.verdict s.pod.settings.codec = .ok () →
    (x.ReachesStore s.pod.settings.writeThrough → ∃ taken, (services.waitWithin
      s.pod.settings.timeout (x.request s.pod.settings.codec) s.world).1 = .ok taken) →
    result = .ok () ∧ asked =
      (if x.ReachesStore s.pod.settings.writeThrough then [x.request s.pod.settings.codec]
        else []) ++ [.publish (x.event s.pod.settings.codec s.pod.settings.instanceId)]
  sender : ∀ e, .publish e ∈ asked → e.sender = s.pod.settings.instanceId
  /-- The peers are given what the store was given. -/
  payload : ∀ key bytes e, .storeSet key bytes ∈ asked → .publish e ∈ asked → e.action = .set →
    e.payload = bytes
  /-- A write that fails leaves no trace outside, if requests that fail leave none. -/
  inert : services.Inert → ∀ e, result = .error e → s'.world = s.world

namespace Write

theorem sender_event (x : Write V) (codec : Codec V) (name : String) :
    (x.event codec name).sender = name := by
  cases x with
  | set announcement key value => cases announcement <;> rfl
  | delete | clear => rfl

theorem request_ne_publish (x : Write V) (codec : Codec V) (e : Event) :
    x.request codec ≠ .publish e := by
  cases x <;> exact Request.noConfusion

/-- A write names its pod in the event for the peers. -/
theorem sender_of_mem {x : Write V} {codec : Codec V} {name : String} {asked : List Request}
    (h : asked ⊆ [x.request codec, .publish (x.event codec name)]) {e : Event}
    (he : .publish e ∈ asked) : e.sender = name := by
  rcases List.mem_cons.1 (h he) with hr | hp
  · exact absurd hr.symm (x.request_ne_publish codec e)
  · cases List.mem_singleton.1 hp
    exact x.sender_event codec name

/-- A value that peers are to adopt is the one that goes to the store. -/
theorem payload_of_mem {x : Write V} {codec : Codec V} {name key : String} {bytes : Bytes}
    {asked : List Request} (h : asked ⊆ [x.request codec, .publish (x.event codec name)])
    {e : Event} (hs : .storeSet key bytes ∈ asked) (he : .publish e ∈ asked)
    (ha : e.action = .set) : e.payload = bytes := by
  obtain rfl : e = x.event codec name := by
    rcases List.mem_cons.1 (h he) with hr | hp
    · exact absurd hr.symm (x.request_ne_publish codec e)
    · exact Request.publish.inj (List.mem_singleton.1 hp)
  have hr : .storeSet key bytes = x.request codec := by
    rcases List.mem_cons.1 (h hs) with hr | hp
    · exact hr
    · cases List.mem_singleton.1 hp
  cases x with
  | set announcement key' value =>
    obtain ⟨-, rfl⟩ := Request.storeSet.inj hr
    cases announcement with
    | value => rfl
    | invalidation => cases ha
  | delete | clear => cases hr

/-- Whatever fails, a write of an open pod is carried out as far as it goes. -/
theorem carriedOut (services : Services ω) {s : Scene V ω} (ho : s.pod.closed = false)
    (x : Write V) :
    ∃ asked, x.CarriedOut services s asked ((x.perform services).run s).1
      ((x.perform services).run s).2 := by
  obtain ⟨result, w', ds, hpath, hdoes⟩ := Pod.does_perform services ho s.world x
  obtain ⟨hresult, hpod, hworld, hdeeds⟩ := hdoes.deeds
  rw [hresult]
  cases hpath with
  | unencodable hv =>
    refine ⟨[], hpod, ?_, hworld, ?_, ?_, ?_, nofun, nofun, fun _ _ _ => hworld⟩
    · simp [hdeeds, hv, Services.converse, failureOf]
    · intro e he
      exact ⟨hv.symm.trans he, rfl⟩
    · intro hok
      cases hv.symm.trans hok
    · intro hok
      cases hv.symm.trans hok
  | refused hv hr hs =>
    have hsub : [x.request s.pod.settings.codec] ⊆ [x.request s.pod.settings.codec,
        .publish (x.event s.pod.settings.codec s.pod.settings.instanceId)] :=
      List.cons_subset_cons _ (List.nil_subset _)
    refine ⟨[x.request s.pod.settings.codec], hpod, ?_, ?_, ?_, ?_, ?_,
      fun _ => sender_of_mem hsub, fun _ _ _ => payload_of_mem hsub, ?_⟩
    · simp [hdeeds, hv, hs, Services.converse, failureOf]
    · simp [hworld, hs, Services.converse]
    · intro e he
      cases hv.symm.trans he
    · intro _ _ e he
      rw [hs] at he
      cases he
      exact ⟨rfl, rfl⟩
    · intro _ htaken
      obtain ⟨taken, h⟩ := htaken hr
      rw [hs] at h
      cases h
    · intro hinert _ _
      exact hworld.trans (hinert.waitWithin hs)
  | stored hv hr hs hp =>
    refine ⟨[x.request s.pod.settings.codec,
        .publish (x.event s.pod.settings.codec s.pod.settings.instanceId)],
      hpod, ?_, ?_, ?_, ?_, ?_, fun _ => sender_of_mem (List.Subset.refl _),
      fun _ _ _ => payload_of_mem (List.Subset.refl _), fun _ e he => by cases he⟩
    · simp [hdeeds, hv, hs, hp, Services.converse, failureOf]
    · simp [hworld, hs, hp, Services.converse]
    · intro e he
      cases hv.symm.trans he
    · intro _ _ e he
      rw [hs] at he
      cases he
    · intro _ _
      rw [if_pos hr]
      exact ⟨rfl, rfl⟩
  | unstored hv hr hp =>
    have hsub : [Request.publish (x.event s.pod.settings.codec s.pod.settings.instanceId)] ⊆
        [x.request s.pod.settings.codec,
          .publish (x.event s.pod.settings.codec s.pod.settings.instanceId)] :=
      List.subset_cons_self _ _
    refine ⟨[.publish (x.event s.pod.settings.codec s.pod.settings.instanceId)], hpod, ?_, ?_, ?_,
      fun _ h => absurd h hr, ?_, fun _ => sender_of_mem hsub, fun _ _ _ => payload_of_mem hsub,
      fun _ e he => by cases he⟩
    · simp [hdeeds, hv, hp, Services.converse, failureOf]
    · simp [hworld, hp, Services.converse]
    · intro e he
      cases hv.symm.trans he
    · intro _ _
      rw [if_neg hr]
      exact ⟨rfl, rfl⟩

end Write

/-! ## Lookups -/

/-- What a lookup of an open pod comes to, whatever fails. -/
structure LookedUp (services : Services ω) (key : String) (s : Scene V ω) (found : Option V)
    (s' : Scene V ω) : Prop where
  /-- What is there is found, and nobody is asked. -/
  hit : ∀ value, s.pod.localCache.contents key = some value →
    found = some value ∧ s'.deeds = s.deeds ++ [.localGet key true] ∧ s'.world = s.world
  /-- That a key is missing in the store is no failure. -/
  missing : s.pod.localCache.contents key = none → ∀ w',
    services.waitWithin s.pod.settings.timeout (.storeGet key) s.world = (.error .notFound, w') →
    found = none ∧ s'.deeds = s.deeds ++ [.localGet key false, .requested (.storeGet key)] ∧
      s'.world = w'
  /-- A lookup that fails in the store gives nothing. -/
  failed : s.pod.localCache.contents key = none → ∀ e w', e ≠ .notFound →
    services.waitWithin s.pod.settings.timeout (.storeGet key) s.world = (.error e, w') →
    found = none ∧ s'.deeds = s.deeds ++ [.localGet key false, .requested (.storeGet key)] ++
      s.pod.settings.reports [e] ∧ s'.world = w'
  /-- So does one that brings what cannot be read. -/
  undecodable : s.pod.localCache.contents key = none → ∀ bytes e w',
    services.waitWithin s.pod.settings.timeout (.storeGet key) s.world = (.ok bytes, w') →
    s.pod.settings.codec.decode bytes = .error e →
    found = none ∧ s'.deeds = s.deeds ++ [.localGet key false, .requested (.storeGet key)] ++
      s.pod.settings.reports [e] ∧ s'.world = w'
  /-- What can be read is found, and offered to the local cache. -/
  decoded : s.pod.localCache.contents key = none → ∀ bytes value w',
    services.waitWithin s.pod.settings.timeout (.storeGet key) s.world = (.ok bytes, w') →
    s.pod.settings.codec.decode bytes = .ok value →
    found = some value ∧ (∃ accepted, s'.deeds = s.deeds ++ [.localGet key false,
      .requested (.storeGet key), .localSet key (s.pod.cost key value) accepted]) ∧ s'.world = w'
  /-- A lookup that gives nothing leaves the local contents as they were. -/
  contents : found = none → s'.pod.localCache.contents = s.pod.localCache.contents

namespace Pod

theorem lookedUp (services : Services ω) {s : Scene V ω} (ho : s.pod.closed = false)
    (key : String) :
    LookedUp services key s ((get services key).run s).1 ((get services key).run s).2 := by
  obtain ⟨found, p', w', ds, hpath, hdoes⟩ := does_get services ho s.world key
  obtain ⟨hresult, hpod, hworld, hdeeds⟩ := hdoes.deeds
  rw [hresult]
  cases hpath with
  | @hit value h =>
    have hthere : s.pod.localCache.contents key ≠ none := by simp [h]
    exact {
      hit := fun other hother => ⟨h.symm.trans hother, hdeeds, hworld⟩
      missing := fun hnone => absurd hnone hthere
      failed := fun hnone => absurd hnone hthere
      undecodable := fun hnone => absurd hnone hthere
      decoded := fun hnone => absurd hnone hthere
      contents := nofun }
  | miss h hf =>
    have hlooked : (s.pod.localCache.get key).2.contents = s.pod.localCache.contents :=
      LocalCache.contents_get _ _
    have hnone : ∀ value, s.pod.localCache.contents key ≠ some value := by simp [h]
    -- The store gives one answer, which the conditions of the other fields do not allow.
    cases hf with
    | missing hs =>
      exact {
        hit := fun value hvalue => absurd hvalue (hnone value)
        missing := fun _ _ hw => ⟨rfl, hdeeds, hworld.trans (Prod.mk.inj (hs.symm.trans hw)).2⟩
        failed := fun _ _ _ he hw =>
          absurd (Except.error.inj (Prod.mk.inj (hs.symm.trans hw)).1).symm he
        undecodable := fun _ _ _ _ hw _ => nomatch hs.symm.trans hw
        decoded := fun _ _ _ _ hw _ => nomatch hs.symm.trans hw
        contents := fun _ => by rw [hpod]; exact hlooked }
    | failed hs he =>
      exact {
        hit := fun value hvalue => absurd hvalue (hnone value)
        missing := fun _ _ hw => absurd (Except.error.inj (Prod.mk.inj (hs.symm.trans hw)).1) he
        failed := fun _ _ _ _ hw => by
          obtain ⟨herror, rfl⟩ := Prod.mk.inj (hs.symm.trans hw)
          obtain rfl := Except.error.inj herror
          exact ⟨rfl, by rw [List.append_assoc]; exact hdeeds, hworld⟩
        undecodable := fun _ _ _ _ hw _ => nomatch hs.symm.trans hw
        decoded := fun _ _ _ _ hw _ => nomatch hs.symm.trans hw
        contents := fun _ => by rw [hpod]; exact hlooked }
    | undecodable hs hd =>
      exact {
        hit := fun value hvalue => absurd hvalue (hnone value)
        missing := fun _ _ hw => nomatch hs.symm.trans hw
        failed := fun _ _ _ _ hw => nomatch hs.symm.trans hw
        undecodable := fun _ _ _ _ hw hd' => by
          obtain ⟨hbytes, rfl⟩ := Prod.mk.inj (hs.symm.trans hw)
          obtain rfl := Except.ok.inj hbytes
          obtain rfl := Except.error.inj (hd.symm.trans hd')
          exact ⟨rfl, by rw [List.append_assoc]; exact hdeeds, hworld⟩
        decoded := fun _ _ _ _ hw hd' => by
          obtain rfl := Except.ok.inj (Prod.mk.inj (hs.symm.trans hw)).1
          exact nomatch hd.symm.trans hd'
        contents := fun _ => by rw [hpod]; exact hlooked }
    | found hs hd =>
      exact {
        hit := fun value hvalue => absurd hvalue (hnone value)
        missing := fun _ _ hw => nomatch hs.symm.trans hw
        failed := fun _ _ _ _ hw => nomatch hs.symm.trans hw
        undecodable := fun _ _ _ _ hw hd' => by
          obtain rfl := Except.ok.inj (Prod.mk.inj (hs.symm.trans hw)).1
          exact nomatch hd.symm.trans hd'
        decoded := fun _ _ _ _ hw hd' => by
          obtain ⟨hbytes, rfl⟩ := Prod.mk.inj (hs.symm.trans hw)
          obtain rfl := Except.ok.inj hbytes
          obtain rfl := Except.ok.inj (hd.symm.trans hd')
          exact ⟨rfl, ⟨_, hdeeds⟩, hworld⟩
        contents := nofun }

/-- Whatever fails in an open pod: a write has its local effect, tells the peers if and only if the
codec and the store let it, and fails only by these; a lookup that gives nothing changes nothing
local; and each failure is reported once. -/
theorem failures_of_open (services : Services ω) {s : Scene V ω} (ho : s.pod.closed = false) :
    (∀ x : Write V, ∃ asked, x.CarriedOut services s asked ((x.perform services).run s).1
      ((x.perform services).run s).2) ∧
    ∀ key, LookedUp services key s ((get services key).run s).1 ((get services key).run s).2 :=
  ⟨Write.carriedOut services ho, lookedUp services ho⟩

/-- The store takes all it is given but cannot be read, and the peers are reached too late: a value
is set all the same and the delay is reported, and a lookup reports the failure of the store. -/
theorem failures_of_open_with_late_publish :
    let faults := (Faults.none.set .publish { delay := 5001 }).set .storeGet
      { failure := some (.store "down") }
    let services : Services (List Request) := .disturbed faults fun r w => ⟨0, .ok [], r :: w⟩
    let s : Scene Bool (List Request) :=
      { pod :=
          { settings :=
              { instanceId := "a", codec := .binary .bool, timeout := .seconds 5,
                writeThrough := true, hasHandler := true, transform := none, weigher := none,
                debug := false }
            localCache := .recency ⟨.empty, 4, 0, 0, 0⟩ }
        world := [] }
    s.pod.closed = false ∧
      ((∀ x : Write Bool, ∃ asked, x.CarriedOut services s asked ((x.perform services).run s).1
        ((x.perform services).run s).2) ∧
      ∀ key, LookedUp services key s ((get services key).run s).1 ((get services key).run s).2) ∧
      ((set services "k" true).run s).1 = .ok () ∧
      ((set services "k" true).run s).2.world = [.storeSet "k" [1]] ∧
      ((set services "k" true).run s).2.deeds =
        [.localSet "k" 1 true, .requested (.storeSet "k" [1]),
          .requested (.publish (.set "k" "a" [1])), .reported (.timeout (.seconds 5))] ∧
      ((get services "k").run s).2.deeds =
        [.localGet "k" false, .requested (.storeGet "k"), .reported (.store "down")] :=
  ⟨rfl, failures_of_open _ rfl, by decide +kernel, by decide +kernel, by decide +kernel,
    by decide +kernel⟩

end Pod

end PodCache
