import PodCache.Cluster.Shared
import PodCache.Proofs.Bus.Apart
import PodCache.Proofs.Bus.Attendance

/-!
# One listener for each synchronizer

Whatever a bus is asked, a payload reaches the synchronizers that subscribed with success and have
not gone away since, and each of them once.  A synchronizer takes what was sent since it first
subscribed, each payload once at most; what was sent before it never takes.  One that was closed
stays so, and the others go on as if nothing had happened (`listens_once`).
-/

namespace PodCache.Bus

variable {κ : Type} {b b' c c' : Bus κ} {id j n : Nat} {s s' : Synchronizer κ} {r : BusRequest κ}
  {rs early late later : List (BusRequest κ)}

/-! ## What is taken -/

/-- The payloads that a synchronizer takes at a request. -/
def taken (b : Bus κ) (id : Nat) : BusRequest κ → List Bytes
  | .take j count => if j = id then (b.waiting id).take count else []
  | .run j => if j = id then b.waiting id else []
  | _ => []

/-- The payloads that a synchronizer takes in a run, in order. -/
def takenAll (b : Bus κ) (id : Nat) : List (BusRequest κ) → List Bytes
  | [] => []
  | r :: rs => b.taken id r ++ (b.serve r).takenAll id rs

theorem waiting_of_listening (hs : b.synchronizers[id]? = some s)
    (hl : ∀ position, s.listening ≠ .active position) : b.waiting id = [] := by
  obtain ⟨channel, listeners, listening, closed⟩ := s
  rw [waiting, hs]
  cases listening with
  | idle | ending => rfl
  | active position => exact absurd rfl (hl position)

theorem waiting_of_not_active (h : ∀ s position, b.synchronizers[id]? = some s →
    s.listening ≠ .active position) : b.waiting id = [] := by
  cases hs : b.synchronizers[id]? with
  | none => rw [waiting, hs]
  | some s => exact waiting_of_listening hs fun position => h s position hs

theorem taken_of_waiting (hw : b.waiting id = []) (r : BusRequest κ) : b.taken id r = [] := by
  unfold taken
  cases r <;> simp [hw]

theorem taken_of_not_takes (hr : ¬ Takes id r) : b.taken id r = [] := by
  unfold taken
  cases r with
  | take j count =>
    refine if_neg fun hj => hr (.inr ⟨count, ?_⟩)
    rw [hj]
  | run j =>
    refine if_neg fun hj => hr (.inl ?_)
    rw [hj]
  | _ => rfl

/-- A synchronizer that takes some of what waits leaves the rest. -/
theorem taken_append_waiting_of_takes (h : b.Sound) (hs : b.synchronizers[id]? = some s)
    {position : Nat} (hl : s.listening = .active position) (hr : Takes id r) :
    b.taken id r ++ (b.serve r).waiting id = b.waiting id := by
  rcases hr with rfl | ⟨count, rfl⟩
  · obtain ⟨-, -, -, hw⟩ := take_starts h hs hl (b.pending id)
    rw [taken, if_pos rfl, serve, run, hw, pending_eq, List.drop_length, List.append_nil]
  · obtain ⟨-, -, -, hw⟩ := take_starts h hs hl count
    rw [taken, if_pos rfl, serve, hw, List.take_append_drop]

/-- Nothing waits for a synchronizer that has just joined. -/
theorem waiting_serve_of_not_active (h : b.Sound)
    (ha : ∀ s position, b.synchronizers[id]? = some s → s.listening ≠ .active position)
    (r : BusRequest κ) : (b.serve r).waiting id = [] := by
  cases hs : b.synchronizers[id]? with
  | none =>
    refine waiting_of_not_active fun s' position hs' hl' => ?_
    cases (fresh_of_serve hs hs').2.symm.trans hl'
  | some s =>
    obtain ⟨s', hs', -, hturns⟩ := turns_serve hs (h.follows id s hs).plain r
    have hidle : ∀ position, s.listening ≠ .active position := fun position => ha s position hs
    cases hturns with
    | joined hr hc hl hc' hl' =>
      subst hr
      obtain ⟨-, -, -, hw⟩ := subscribe_starts hs hc hl
      exact hw
    | left hr hc' hl' =>
      exact waiting_of_listening hs' fun position hp => hidle position (hl' position hp).2
    | ended hr hl hc' hl' =>
      exact waiting_of_listening hs' fun position hp => by cases hl'.symm.trans hp
    | took hr hl hc' hl' => exact absurd hl (hidle _)
    | stayed hr hj ht hc' hl' =>
      exact waiting_of_listening hs' fun position hp => hidle position (hl'.symm.trans hp)

/-- To a synchronizer that stays where it is, or stops, nothing comes but what is sent on its
channel. -/
theorem waiting_serve_sublist (h : b.Sound) (hs : b.synchronizers[id]? = some s)
    (hs' : (b.serve r).synchronizers[id]? = some s') (hc : s'.channel = s.channel)
    (hl : ∀ position, s'.listening = .active position → s.listening = .active position) :
    ((b.serve r).waiting id).Sublist (b.waiting id ++ b.sends s.channel r) := by
  by_cases ha : ∃ position, s'.listening = .active position
  · obtain ⟨position, hp⟩ := ha
    rw [waiting_of_active hs' hp, waiting_of_active hs (hl position hp), hc, topic_serve,
      Topic.since_sendAll ((h.follows id s hs).le_sent position (hl position hp))
        (h.retained_le s.channel)]
    exact List.drop_sublist _ _
  · rw [waiting_of_listening hs' (not_exists.1 ha)]
    exact List.nil_sublist _

/-- What a request leaves waiting and what was taken at it was waiting before, or is new. -/
theorem taken_append_waiting_sublist (h : b.Sound) {channel : String}
    (hch : ∀ s, b.synchronizers[id]? = some s → s.channel = channel) (r : BusRequest κ) :
    (b.taken id r ++ (b.serve r).waiting id).Sublist (b.waiting id ++ b.sends channel r) := by
  by_cases ha : ∀ s position, b.synchronizers[id]? = some s → s.listening ≠ .active position
  · rw [taken_of_waiting (waiting_of_not_active ha), waiting_serve_of_not_active h ha]
    exact List.nil_sublist _
  · simp only [not_forall, not_not] at ha
    obtain ⟨s, position, hs, hl⟩ := ha
    obtain rfl := hch s hs
    obtain ⟨s', hs', hchannel, hturns⟩ := turns_serve hs (h.follows id s hs).plain r
    cases hturns with
    | joined hr hc hidle => cases hl.symm.trans hidle
    | left hr hc' hl' =>
      have htakes : ¬ Takes id r := fun ht => hr.elim (ht.ne id).2.1 (ht.ne id).2.2
      rw [taken_of_not_takes htakes, List.nil_append]
      exact waiting_serve_sublist h hs hs' hchannel fun position hp => (hl' position hp).2
    | ended hr hending => cases hl.symm.trans hending
    | took hr =>
      rw [taken_append_waiting_of_takes h hs hl hr]
      exact List.sublist_append_left _ _
    | stayed hr hj ht hc' hl' =>
      have htakes : ¬ Takes id r := fun htakes => nomatch hl.symm.trans (ht htakes)
      rw [taken_of_not_takes htakes, List.nil_append]
      exact waiting_serve_sublist h hs hs' hchannel fun _ hp => hl'.symm.trans hp

theorem exists_of_serve (h : b.Sound) (hs : b.synchronizers[id]? = some s) (r : BusRequest κ) :
    ∃ s', (b.serve r).synchronizers[id]? = some s' ∧ s'.channel = s.channel := by
  obtain ⟨s', hs', hchannel, -⟩ := turns_serve hs (h.follows id s hs).plain r
  exact ⟨s', hs', hchannel⟩

theorem exists_of_after (h : b.Sound) (hs : b.synchronizers[id]? = some s)
    (rs : List (BusRequest κ)) :
    ∃ s', (b.after rs).synchronizers[id]? = some s' ∧ s'.channel = s.channel := by
  induction rs generalizing b s with
  | nil => exact ⟨s, hs, rfl⟩
  | cons r rs ih =>
    obtain ⟨s₁, hs₁, hchannel₁⟩ := exists_of_serve h hs r
    obtain ⟨s', hs', hchannel'⟩ := ih (h.serve r) hs₁
    exact ⟨s', hs', hchannel'.trans hchannel₁⟩

/-- What is taken in a run was waiting before or was sent in its course, and is taken once. -/
theorem takenAll_append_waiting_sublist (h : b.Sound) {channel : String}
    (hch : ∀ s, (b.after rs).synchronizers[id]? = some s → s.channel = channel) :
    (b.takenAll id rs ++ (b.after rs).waiting id).Sublist
      (b.waiting id ++ b.sendsAll channel rs) := by
  induction rs generalizing b with
  | nil => exact (List.append_nil (b.waiting id)).symm ▸ List.Sublist.refl _
  | cons r rs ih =>
    have hnow : ∀ s, b.synchronizers[id]? = some s → s.channel = channel := by
      intro s hs
      obtain ⟨s', hs', hchannel⟩ := exists_of_after h hs (r :: rs)
      exact hchannel.symm.trans (hch s' hs')
    have hrest := ih (h.serve r) hch
    have hfirst := taken_append_waiting_sublist h hnow r
    rw [takenAll, sendsAll, List.append_assoc, ← List.append_assoc (b.waiting id)]
    calc (b.taken id r ++ ((b.serve r).takenAll id rs ++ ((b.serve r).after rs).waiting id)).Sublist
          (b.taken id r ++ ((b.serve r).waiting id ++ (b.serve r).sendsAll channel rs)) :=
          hrest.append_left _
      _ = (b.taken id r ++ (b.serve r).waiting id) ++ (b.serve r).sendsAll channel rs :=
          (List.append_assoc _ _ _).symm
      List.Sublist _ ((b.waiting id ++ b.sends channel r) ++ (b.serve r).sendsAll channel rs) :=
          hfirst.append_right _

theorem takenAll_append (b : Bus κ) (id : Nat) (rs rs' : List (BusRequest κ)) :
    b.takenAll id (rs ++ rs') = b.takenAll id rs ++ (b.after rs).takenAll id rs' := by
  induction rs generalizing b with
  | nil => rfl
  | cons r rs ih =>
    show b.taken id r ++ (b.serve r).takenAll id (rs ++ rs') = _
    rw [ih, ← List.append_assoc]
    rfl

/-- Nothing waits for a synchronizer that has not joined. -/
theorem waiting_of_not_joined (hj : ¬ Once (Joins id) (withCapacity n) rs) :
    ((withCapacity n).after rs).waiting id = [] :=
  waiting_of_not_active fun _ position hs hl => hj ((attends_after hs).active.1 ⟨position, hl⟩).1

theorem takenAll_of_not_joined (hj : ¬ Once (Joins id) (withCapacity n) rs) :
    (withCapacity n).takenAll id rs = [] := by
  induction rs using List.reverseRecOn with
  | nil => rfl
  | append_singleton rs r ih =>
    rw [once_append_singleton, not_or] at hj
    rw [takenAll_append, ih hj.1, takenAll, takenAll,
      taken_of_waiting (waiting_of_not_joined hj.1)]
    rfl

/-- A synchronizer takes nothing that was sent before it joined. -/
theorem takenAll_sublist (hj : ¬ Once (Joins id) (withCapacity n) early)
    (hs : ((withCapacity n).after (early ++ late)).synchronizers[id]? = some s) :
    ((withCapacity n).takenAll id (early ++ late)).Sublist
      (((withCapacity n).after early).sendsAll s.channel late) := by
  have hsound := (sound_withCapacity n).after (κ := κ) early
  rw [after_append] at hs
  have hchannel : ∀ s', (((withCapacity n).after early).after late).synchronizers[id]? = some s' →
      s'.channel = s.channel :=
    fun s' hs' => congrArg Synchronizer.channel (Option.some.inj (hs'.symm.trans hs))
  have htaken := takenAll_append_waiting_sublist hsound hchannel
  rw [waiting_of_not_joined hj, List.nil_append] at htaken
  rw [takenAll_append, takenAll_of_not_joined hj, List.nil_append]
  exact (List.sublist_append_left _ _).trans htaken

/-- What happens at a request on the receiving side of a synchronizer. -/
def occurs (b : Bus κ) (id : Nat) : BusRequest κ → List (Occurrence κ)
  | .take j count => if j = id then (b.take id count).1 else []
  | .run j => if j = id then (b.run id).1 else []
  | _ => []

theorem take_of_not_active (hs : b.synchronizers[id]? = some s)
    (hl : ∀ position, s.listening ≠ .active position) (count : Nat) : (b.take id count).1 = [] := by
  unfold take
  rw [hs]
  dsimp only
  cases h : s.listening with
  | idle | ending => rfl
  | active position => exact absurd h (hl position)

/-- The callbacks are told what is taken, each payload once. -/
theorem take_eq_told (hp : s.listeners.Plain) (hs : b.synchronizers[id]? = some s) (count : Nat) :
    ∃ lost : List Nat, (b.take id count).1 =
      lost.map .lagged ++ ((b.waiting id).take count).flatMap s.listeners.told := by
  by_cases hl : ∃ position, s.listening = .active position
  · obtain ⟨position, hl⟩ := hl
    rw [(take_of_active hs hl hp count).1, waiting_of_active hs hl]
    split_ifs
    · exact ⟨[], rfl⟩
    · exact ⟨[_], rfl⟩
  · simp only [not_exists] at hl
    rw [take_of_not_active hs hl, waiting_of_listening hs hl, List.take_nil]
    exact ⟨[], rfl⟩

theorem occurs_eq_told (h : b.Sound) (hs : b.synchronizers[id]? = some s) (r : BusRequest κ) :
    ∃ lost : List Nat,
      b.occurs id r = lost.map .lagged ++ (b.taken id r).flatMap s.listeners.told := by
  have hp := (h.follows id s hs).plain
  unfold occurs taken
  cases r with
  | take j count =>
    dsimp only
    split_ifs
    · exact take_eq_told hp hs count
    · exact ⟨[], rfl⟩
  | run j =>
    dsimp only
    split_ifs
    · have hall : (b.waiting id).take (b.pending id) = b.waiting id := by
        rw [pending_eq, List.take_length]
      rw [← hall]
      exact take_eq_told hp hs (b.pending id)
    · exact ⟨[], rfl⟩
  | _ => exact ⟨[], rfl⟩

theorem occurs_of_not_active (hs : b.synchronizers[id]? = some s)
    (hl : ∀ position, s.listening ≠ .active position) (r : BusRequest κ) : b.occurs id r = [] := by
  unfold occurs
  cases r with
  | take | run =>
    dsimp only
    split_ifs
    · exact take_of_not_active hs hl _
    · rfl
  | _ => rfl

/-! ## A synchronizer that was closed -/

/-- What a synchronizer is that was closed.  It may be asked to close once more, which succeeds. -/
structure Shut (b : Bus κ) (id : Nat) : Prop where
  subscribe : b.subscribe id = (.error .closed, b)
  publish : ∀ e, b.publish id e = (.error .closed, b)
  close : ∀ handle store, Shared.services handle id .synchronizerClose ⟨store, b⟩ =
    ⟨0, .ok [], ⟨store, b⟩⟩
  occurs : ∀ later r, (b.after later).occurs id r = []

theorem close_of_closed (hs : b.synchronizers[id]? = some s) (hc : s.closed = true) :
    b.close id = b := by
  have hclose := apart_modify hs fun s =>
    if s.closed then s else { s with closed := true, listening := .idle }
  rw [if_pos hc] at hclose
  exact hclose.eq

theorem shut_of_left (hs : ((withCapacity n).after rs).synchronizers[id]? = some s)
    (hl : Once (Leaves id) (withCapacity n) rs) : ((withCapacity n).after rs).Shut id := by
  have hc : s.closed = true := (attends_after hs).closed.2 hl
  refine ⟨?_, fun e => ?_, fun handle store => ?_, fun later r => ?_⟩
  · rw [subscribe_eq hs, if_pos hc]
  · unfold Bus.publish
    rw [hs]
    exact if_pos hc
  · show (⟨0, .ok [], ⟨store, Bus.close _ id⟩⟩ : Response (Shared κ)) = _
    rw [close_of_closed hs hc]
  · obtain ⟨s', hs', -⟩ := exists_of_after ((sound_withCapacity n).after rs) hs later
    refine occurs_of_not_active hs' (fun position hp => ?_) r
    rw [← after_append] at hs'
    exact ((attends_after hs').active.1 ⟨position, hp⟩).2 (once_append.2 (.inl hl))

/-! ## The others -/

/-- Two buses that are the same but for one synchronizer, which is there on both. -/
def Aside (id : Nat) (b b' : Bus κ) : Prop := ∃ s s', Apart id s s' b b'

/-- What a synchronizer does to itself only makes no difference to the others. -/
theorem Aside.touches (h : Aside id b b') (hc : Touches id b c) (hc' : Touches id b' c')
    (hz : c.synchronizers.size = b.synchronizers.size)
    (hz' : c'.synchronizers.size = b'.synchronizers.size) : Aside id c c' := by
  obtain ⟨s, s', h⟩ := h
  have hlt : id < c.synchronizers.size := hz ▸ (Array.getElem?_eq_some_iff.1 h.left).1
  have hlt' : id < c'.synchronizers.size := hz' ▸ (Array.getElem?_eq_some_iff.1 h.right).1
  exact ⟨_, _, (hc.symm.trans h.touches).trans hc', by rw [hz', h.size, hz],
    Array.getElem?_eq_getElem hlt, Array.getElem?_eq_getElem hlt'⟩

theorem Aside.modify (h : Aside id b b') (j : Nat) (f : Synchronizer κ → Synchronizer κ) :
    Aside id (b.modify j f) (b'.modify j f) := by
  by_cases hj : j = id
  · subst hj
    exact h.touches (touches_modify b j f) (touches_modify b' j f) Array.size_modify
      Array.size_modify
  · obtain ⟨s, s', h⟩ := h
    exact ⟨s, s', h.modify hj f⟩

theorem Aside.take (h : Aside id b b') (j count : Nat) :
    Aside id (b.take j count).2 (b'.take j count).2 := by
  by_cases hj : j = id
  · subst hj
    exact h.touches (touches_take b j count) (touches_take b' j count) (size_take b j count)
      (size_take b' j count)
  · obtain ⟨s, s', h⟩ := h
    exact ⟨s, s', (h.take hj count).2⟩

theorem Aside.pending (h : Aside id b b') (hj : j ≠ id) : b'.pending j = b.pending j := by
  obtain ⟨s, s', h⟩ := h
  rw [pending_eq, pending_eq, h.touches.waiting hj]

/-- The buses are still the same but for the one synchronizer, unless it sends. -/
theorem Aside.serve (h : Aside id b b') (hr : ∀ e, r ≠ .publish id e) :
    Aside id (b.serve r) (b'.serve r) := by
  cases r with
  | synchronizer channel name =>
    obtain ⟨s, s', h⟩ := h
    exact ⟨s, s', h.synchronizer channel name⟩
  | listen j callback | listenErrors j callback | close j | drop j => exact h.modify j _
  | subscribe j =>
    by_cases hj : j = id
    · subst hj
      exact h.touches (touches_subscribe b j) (touches_subscribe b' j) (size_subscribe b j)
        (size_subscribe b' j)
    · obtain ⟨s, s', h⟩ := h
      exact ⟨s, s', (h.subscribe hj).2⟩
  | publish j e =>
    have hj : j ≠ id := fun hj => hr e (hj ▸ rfl)
    obtain ⟨s, s', h⟩ := h
    exact ⟨s, s', (h.publish hj e).2⟩
  | publishRaw channel payload =>
    obtain ⟨s, s', h⟩ := h
    exact ⟨s, s', h.publishRaw channel payload⟩
  | take j count => exact h.take j count
  | run j =>
    by_cases hj : j = id
    · subst hj
      exact h.touches (touches_take b j _) (touches_take b' j _) (size_take b j _)
        (size_take b' j _)
    · rw [Bus.serve, Bus.serve, run, run, h.pending hj]
      exact h.take j _

theorem Aside.after (h : Aside id b b') (hr : ∀ r ∈ later, ∀ e, r ≠ .publish id e) :
    Aside id (b.after later) (b'.after later) := by
  induction later generalizing b b' with
  | nil => exact h
  | cons r later ih =>
    exact ih (h.serve (hr r List.mem_cons_self)) fun r' hr' => hr r' (List.mem_cons_of_mem _ hr')

/-- Two buses on which everybody but one synchronizer finds the same. -/
structure Alike (id : Nat) (b b' : Bus κ) : Prop where
  touches : Touches id b b'
  subscribe : ∀ j, j ≠ id → (b.subscribe j).1 = (b'.subscribe j).1
  publish : ∀ j, j ≠ id → ∀ e, (b.publish j e).1 = (b'.publish j e).1
  occurs : ∀ j, j ≠ id → ∀ r, b.occurs j r = b'.occurs j r

theorem Aside.alike (h : Aside id b b') : Alike id b b' := by
  have hpending (j : Nat) (hj : j ≠ id) := h.pending hj
  obtain ⟨s, s', h⟩ := h
  refine ⟨h.touches, fun j hj => (h.subscribe hj).1, fun j hj e => (h.publish hj e).1,
    fun j hj r => ?_⟩
  unfold Bus.occurs
  cases r with
  | take i count =>
    dsimp only
    rw [(h.take hj count).1]
  | run i =>
    dsimp only
    rw [run, run, hpending j hj, (h.take hj _).1]
  | _ => rfl

/-! ## Every run -/

theorem subscribe_subscribe (b : Bus κ) (id : Nat) :
    ((b.subscribe id).2.subscribe id).2 = (b.subscribe id).2 := by
  cases hs : b.synchronizers[id]? with
  | none =>
    have hsub : (b.subscribe id).2 = b := by rw [subscribe, hs]
    rw [hsub, hsub]
  | some s =>
    rw [subscribe_eq hs]
    split_ifs with hc hl
    · rw [subscribe_eq hs, if_pos hc]
    · exact subscribe_of_active (getElem?_modify_self hs _) rfl
    · rw [subscribe_eq hs, if_neg hc, if_neg hl]

/-- Several calls of `subscribe` in turn come to what one comes to. -/
theorem after_replicate_subscribe (b : Bus κ) (id count : Nat) :
    b.after (List.replicate (count + 1) (.subscribe id)) = (b.subscribe id).2 := by
  induction count generalizing b with
  | zero => rfl
  | succ count ih =>
    rw [List.replicate_succ]
    exact (ih (b.subscribe id).2).trans (subscribe_subscribe b id)

/-- What holds of a bus in every run: each synchronizer has one listener at most. -/
structure ListensOnce (n : Nat) (rs : List (BusRequest κ)) (b : Bus κ) : Prop where
  /-- When every synchronizer has run, a payload reaches those on its channel that have subscribed
  with success and were neither closed nor dropped. -/
  reached : ∀ channel payload, ∃ ids : List Nat, ids.Nodup ∧
    (∀ id, id ∈ ids ↔
      (b.synchronizers[id]?).map Synchronizer.channel = some channel ∧
        Once (Joins id) (withCapacity n) rs ∧ ¬ Once (Leaves id) (withCapacity n) rs) ∧
    (b.settle.2.publishRaw channel payload).1 = ids.length
  /-- A synchronizer takes what was sent on its channel since it first subscribed, each payload once
  at most. -/
  taken : ∀ early late, rs = early ++ late → ∀ id s, b.synchronizers[id]? = some s →
    ¬ Once (Joins id) (withCapacity n) early →
    ((withCapacity n).takenAll id rs).Sublist
      (((withCapacity n).after early).sendsAll s.channel late)
  /-- Callbacks are told what is taken and nothing else. -/
  told : ∀ id s, b.synchronizers[id]? = some s → ∀ r, ∃ lost : List Nat,
    b.occurs id r = lost.map .lagged ++ (b.taken id r).flatMap s.listeners.told
  /-- Calls of `subscribe` in turn come to what one comes to. -/
  in_turn : ∀ id count, b.after (List.replicate (count + 1) (.subscribe id)) = (b.subscribe id).2
  /-- So do calls at once, which start one task at most, and none waits for ever. -/
  at_once : ∀ id s, b.synchronizers[id]? = some s → ∀ count schedule,
    let c := (b.crowd s count).run schedule
    c.tasks.length ≤ 1 ∧ (∃ more, (c.run more).Done) ∧
      (c.Done → 0 < count → b.Subscribes id s c)
  shut : ∀ id, Once (Closes id) (withCapacity n) rs → b.Shut id
  /-- Whatever comes later, the others find the same as if a synchronizer had not been closed, but
  for what it would have sent. -/
  others : ∀ id, id < b.synchronizers.size → ∀ later : List (BusRequest κ),
    (∀ r ∈ later, ∀ e, r ≠ .publish id e) →
    Alike id (b.after later) ((b.close id).after later)

/-- A synchronizer has one listener at most, however often and at whatever times it subscribes; once
closed it has none, and the others do not mind. -/
theorem listens_once (n : Nat) (rs : List (BusRequest κ)) :
    ListensOnce n rs ((withCapacity n).after rs) where
  reached := fun channel _ => reached_settle n rs channel
  taken := by
    rintro early late rfl id s hs hj
    exact takenAll_sublist hj hs
  told := fun id s hs r => occurs_eq_told ((sound_withCapacity n).after rs) hs r
  in_turn := fun id count => after_replicate_subscribe _ id count
  at_once := fun id s hs count schedule =>
    subscribes_of_crowd hs
      (fun he => (attends_after hs).closed.2 ((attends_after hs).ending he)) count schedule
  shut := fun id hc => by
    have hl : Once (Leaves id) (withCapacity n) rs :=
      hc.mono fun _ _ h => ⟨.inl h.1, h.2⟩
    cases hs : ((withCapacity n).after rs).synchronizers[id]? with
    | none => exact absurd hl (not_once_of_none (fun _ _ h => h.2) hs)
    | some s => exact shut_of_left hs hl
  others := fun id hlt later hr =>
    have hs := Array.getElem?_eq_getElem hlt
    (Aside.after ⟨_, _, apart_modify hs _⟩ hr).alike

/-- Of two synchronizers of one name that subscribe, one of them twice, one goes away. -/
example :
    let rs : List (BusRequest String) :=
      [.synchronizer "ch" "a", .synchronizer "ch" "a", .subscribe 0, .subscribe 1, .subscribe 0,
        .drop 1]
    ((withCapacity 4).after rs).settle.2.publishRaw "ch" [] |>.1 = 1 := by
  decide +kernel

end PodCache.Bus
