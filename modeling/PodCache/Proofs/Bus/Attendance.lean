import PodCache.Proofs.Bus.Law
import PodCache.Proofs.Bus.Slot

/-!
# Who listens

What a request makes of a synchronizer depends on whether the synchronizer listens and is closed
(`Turns`).  In every run these tell what has happened to it: it listens if it has subscribed with
success and has not gone away since, however often it subscribed (`attends_after`).  When every
synchronizer has run, a payload reaches those that do (`reached_settle`).
-/

namespace PodCache.Bus

variable {κ : Type} {b b' : Bus κ} {id j : Nat} {s s' : Synchronizer κ} {r : BusRequest κ}
  {rs rs' : List (BusRequest κ)}

/-! ## Histories -/

/-- Whether some request of a run meets a condition on the bus that it finds. -/
def Once (p : Bus κ → BusRequest κ → Prop) (b : Bus κ) : List (BusRequest κ) → Prop
  | [] => False
  | r :: rs => p b r ∨ Once p (b.serve r) rs

theorem Once.mono {p q : Bus κ → BusRequest κ → Prop} (h : ∀ b r, p b r → q b r)
    (hp : Once p b rs) : Once q b rs := by
  induction rs generalizing b with
  | nil => exact hp
  | cons r rs ih => exact hp.imp (h b r) ih

theorem after_append (b : Bus κ) (rs rs' : List (BusRequest κ)) :
    b.after (rs ++ rs') = (b.after rs).after rs' := List.foldl_append

theorem once_append {p : Bus κ → BusRequest κ → Prop} :
    Once p b (rs ++ rs') ↔ Once p b rs ∨ Once p (b.after rs) rs' := by
  induction rs generalizing b with
  | nil => exact (or_iff_right id).symm
  | cons r rs ih =>
    show p b r ∨ Once p (b.serve r) (rs ++ rs') ↔ (p b r ∨ Once p (b.serve r) rs) ∨ _
    rw [ih, or_assoc]
    rfl

theorem once_append_singleton {p : Bus κ → BusRequest κ → Prop} :
    Once p b (rs ++ [r]) ↔ Once p b rs ∨ p (b.after rs) r := by
  rw [once_append]
  exact or_congr_right (or_iff_left id)

/-- A call of `subscribe` that succeeds. -/
def Joins (id : Nat) (b : Bus κ) (r : BusRequest κ) : Prop :=
  r = .subscribe id ∧ (b.subscribe id).1 = .ok ()

/-- A synchronizer is closed. -/
def Closes (id : Nat) (b : Bus κ) (r : BusRequest κ) : Prop :=
  r = .close id ∧ id < b.synchronizers.size

/-- A synchronizer is closed or dropped. -/
def Leaves (id : Nat) (b : Bus κ) (r : BusRequest κ) : Prop :=
  (r = .close id ∨ r = .drop id) ∧ id < b.synchronizers.size

/-- A synchronizer is to take what waits for it. -/
def Takes (id : Nat) (r : BusRequest κ) : Prop := r = .run id ∨ ∃ count, r = .take id count

theorem Takes.ne (h : Takes id r) (j : Nat) :
    r ≠ .subscribe j ∧ r ≠ .close j ∧ r ≠ .drop j := by
  rcases h with rfl | ⟨count, rfl⟩ <;> exact ⟨nofun, nofun, nofun⟩

/-! ## What a request makes of a synchronizer -/

/-- What a request makes of the listening of a synchronizer. -/
inductive Turns (b : Bus κ) (id : Nat) (s s' : Synchronizer κ) (r : BusRequest κ) : Prop
  | joined (hr : r = .subscribe id) (hc : s.closed = false) (hl : s.listening = .idle)
      (hc' : s'.closed = false) (hl' : s'.listening = .active (b.topic s.channel).sent)
  | left (hr : r = .close id ∨ r = .drop id) (hc' : s'.closed = true)
      (hl' : ∀ position, s'.listening = .active position →
        s.closed = true ∧ s.listening = .active position)
  | ended (hr : Takes id r) (hl : s.listening = .ending) (hc' : s'.closed = s.closed)
      (hl' : s'.listening = .idle)
  | took {position position' : Nat} (hr : Takes id r) (hl : s.listening = .active position)
      (hc' : s'.closed = s.closed) (hl' : s'.listening = .active position')
  | stayed (hr : r ≠ .close id ∧ r ≠ .drop id)
      (hj : r = .subscribe id → s.closed = true ∨ s.listening ≠ .idle)
      (ht : Takes id r → s.listening = .idle) (hc' : s'.closed = s.closed)
      (hl' : s'.listening = s.listening)

theorem turns_take (hs : b.synchronizers[id]? = some s) (hp : s.listeners.Plain) {count : Nat}
    (hr : Takes id r) :
    ∃ s', (b.take id count).2.synchronizers[id]? = some s' ∧ s'.channel = s.channel ∧
      Turns b id s s' r := by
  obtain ⟨hsubscribe, hne⟩ := hr.ne id
  cases hl : s.listening with
  | idle =>
    have htake : (b.take id count).2 = b := by
      unfold take
      rw [hs]
      dsimp only
      rw [hl]
    exact ⟨s, by rwa [htake], rfl,
      .stayed hne (fun h => absurd h hsubscribe) (fun _ => hl) rfl rfl⟩
  | active position =>
    exact ⟨_, (take_of_active hs hl hp count).2, rfl, .took hr hl rfl rfl⟩
  | ending =>
    have htake : (b.take id count).2 = b.modify id fun s => { s with listening := .idle } := by
      unfold take
      rw [hs]
      dsimp only
      rw [hl]
    refine ⟨{ s with listening := .idle }, ?_, rfl, .ended hr hl rfl rfl⟩
    rw [htake]
    exact getElem?_modify_self hs _

theorem turns_subscribe (hs : b.synchronizers[id]? = some s) :
    ∃ s', (b.subscribe id).2.synchronizers[id]? = some s' ∧ s'.channel = s.channel ∧
      Turns b id s s' (.subscribe id) := by
  have stays (h : s.closed = true ∨ s.listening ≠ .idle) : Turns b id s s (.subscribe id) :=
    .stayed ⟨nofun, nofun⟩ (fun _ => h) (by rintro (h | ⟨_, h⟩) <;> cases h) rfl rfl
  rw [subscribe_eq hs]
  split_ifs with hc hl
  · exact ⟨s, hs, rfl, stays (.inl hc)⟩
  · exact ⟨_, getElem?_modify_self hs _, rfl,
      .joined rfl (Bool.eq_false_of_not_eq_true hc) hl (Bool.eq_false_of_not_eq_true hc) rfl⟩
  · exact ⟨s, hs, rfl, stays (.inr hl)⟩

/-- A request that is about something else leaves a synchronizer alone, but for callbacks. -/
theorem getElem?_serve_of_others (hs : b.synchronizers[id]? = some s)
    (hr : r ≠ .subscribe id ∧ r ≠ .close id ∧ r ≠ .drop id ∧ ¬ Takes id r) :
    ∃ listeners, (b.serve r).synchronizers[id]? = some { s with listeners } := by
  obtain ⟨hsubscribe, hclose, hdrop, htake⟩ := hr
  have other {b' : Bus κ} {i : Nat} (hb : Touches i b b') (hi : i ≠ id) :
      ∃ listeners, b'.synchronizers[id]? = some { s with listeners } :=
    ⟨s.listeners, (hb.others id hi.symm).trans hs⟩
  cases r with
  | synchronizer channel name =>
    obtain ⟨hlt, -⟩ := Array.getElem?_eq_some_iff.1 hs
    refine ⟨s.listeners, ?_⟩
    rw [serve, synchronizer, Array.getElem?_push, if_neg (by omega)]
    exact hs
  | listen i callback | listenErrors i callback =>
    by_cases hi : i = id
    · subst hi
      exact ⟨_, getElem?_modify_self hs _⟩
    · exact other (touches_modify b i _) hi
  | subscribe i => exact other (touches_subscribe b i) fun hi => hsubscribe (hi ▸ rfl)
  | publish i e =>
    refine ⟨s.listeners, ?_⟩
    simp only [serve, publish]
    cases b.synchronizers[i]? with
    | none => exact hs
    | some s' =>
      dsimp only
      split_ifs <;> exact hs
  | publishRaw _ _ => exact ⟨s.listeners, hs⟩
  | take i count =>
    exact other (touches_take b i count) fun hi => htake (.inr ⟨count, hi ▸ rfl⟩)
  | run i => exact other (touches_take b i _) fun hi => htake (.inl (hi ▸ rfl))
  | close i => exact other (touches_modify b i _) fun hi => hclose (hi ▸ rfl)
  | drop i => exact other (touches_modify b i _) fun hi => hdrop (hi ▸ rfl)

/-- A synchronizer stays on its channel, and turns as the request says. -/
theorem turns_serve (hs : b.synchronizers[id]? = some s) (hp : s.listeners.Plain)
    (r : BusRequest κ) :
    ∃ s', (b.serve r).synchronizers[id]? = some s' ∧ s'.channel = s.channel ∧
      Turns b id s s' r := by
  by_cases hsubscribe : r = .subscribe id
  · subst hsubscribe
    exact turns_subscribe hs
  by_cases htake : Takes id r
  · rcases htake with rfl | ⟨count, rfl⟩
    · exact turns_take hs hp (.inl rfl)
    · exact turns_take hs hp (.inr ⟨count, rfl⟩)
  by_cases hleave : r = .close id ∨ r = .drop id
  · rcases hleave with rfl | rfl
    · refine ⟨_, getElem?_modify_self hs _, ?_⟩
      split_ifs with hc
      · exact ⟨rfl, .left (.inl rfl) hc fun _ hl => ⟨hc, hl⟩⟩
      · exact ⟨rfl, .left (.inl rfl) rfl fun _ hl => by cases hl⟩
    · refine ⟨_, getElem?_modify_self hs _, rfl, .left (.inr rfl) rfl fun _ hl => ?_⟩
      dsimp only at hl
      split_ifs at hl
  · obtain ⟨hclose, hdrop⟩ := not_or.1 hleave
    obtain ⟨listeners, hsync⟩ := getElem?_serve_of_others hs ⟨hsubscribe, hclose, hdrop, htake⟩
    exact ⟨_, hsync, rfl, .stayed ⟨hclose, hdrop⟩ (fun h => absurd h hsubscribe)
      (fun h => absurd h htake) rfl rfl⟩

theorem size_subscribe (b : Bus κ) (id : Nat) :
    (b.subscribe id).2.synchronizers.size = b.synchronizers.size := by
  unfold subscribe
  cases b.synchronizers[id]? with
  | none => rfl
  | some s =>
    dsimp only
    split_ifs
    · rfl
    · exact Array.size_modify
    · rfl

/-- Only one request makes a synchronizer. -/
theorem size_serve (b : Bus κ) (hr : ∀ channel name, r ≠ .synchronizer channel name) :
    (b.serve r).synchronizers.size = b.synchronizers.size := by
  cases r with
  | synchronizer channel name => exact absurd rfl (hr channel name)
  | listen | listenErrors | close | drop => exact Array.size_modify
  | subscribe id => exact size_subscribe b id
  | publish id e =>
    simp only [serve, publish]
    cases b.synchronizers[id]? with
    | none => rfl
    | some s =>
      dsimp only
      split_ifs <;> rfl
  | publishRaw _ _ => rfl
  | take id count => exact size_take b id count
  | run id => exact size_take b id _

/-- A synchronizer that was not there before is open and does not listen. -/
theorem fresh_of_serve (hs : b.synchronizers[id]? = none)
    (hs' : (b.serve r).synchronizers[id]? = some s') :
    s'.closed = false ∧ s'.listening = .idle := by
  by_cases hr : ∃ channel name, r = .synchronizer channel name
  · obtain ⟨channel, name, rfl⟩ := hr
    rw [serve, synchronizer, Array.getElem?_push, hs] at hs'
    split_ifs at hs'
    obtain rfl := Option.some.inj hs'
    exact ⟨rfl, rfl⟩
  · simp only [not_exists] at hr
    obtain ⟨hlt, -⟩ := Array.getElem?_eq_some_iff.1 hs'
    rw [size_serve b hr] at hlt
    exact absurd hlt (not_lt.2 (Array.getElem?_eq_none_iff.1 hs))

/-! ## Who listens -/

/-- What holds of a synchronizer that has subscribed with success or not, and has gone away or
not. -/
structure Attends (joined left : Prop) (s : Synchronizer κ) : Prop where
  closed : s.closed = true ↔ left
  active : (∃ position, s.listening = .active position) ↔ joined ∧ ¬ left
  ending : s.listening = .ending → left

theorem joins_iff (hs : b.synchronizers[id]? = some s) :
    Joins id b r ↔ r = .subscribe id ∧ s.closed = false := by
  refine and_congr_right fun _ => ?_
  rw [subscribe_eq hs]
  split_ifs with hc <;> simp [hc]

theorem leaves_iff (hs : b.synchronizers[id]? = some s) :
    Leaves id b r ↔ r = .close id ∨ r = .drop id :=
  and_iff_left (Array.getElem?_eq_some_iff.1 hs).1

/-- A synchronizer that neither starts nor stops for good is what it was. -/
theorem Attends.goes_on {joined left : Prop} (h : Attends joined left s)
    (hs : b.synchronizers[id]? = some s) (hr : r ≠ .close id ∧ r ≠ .drop id)
    (hj : r = .subscribe id → s.closed = true ∨ s.listening ≠ .idle) (hc : s'.closed = s.closed)
    (ha : (∃ position, s'.listening = .active position) ↔
      ∃ position, s.listening = .active position)
    (he : s'.listening = .ending → s.listening = .ending) :
    Attends (joined ∨ Joins id b r) (left ∨ Leaves id b r) s' := by
  have hstays : ¬ Leaves id b r := by
    rw [leaves_iff hs, not_or]
    exact hr
  -- whoever may subscribe once more without starting has subscribed before
  have hjoined : (joined ∨ Joins id b r) ∧ ¬ left ↔ joined ∧ ¬ left := by
    refine ⟨fun ⟨hor, hleft⟩ => ⟨?_, hleft⟩, fun ⟨hjoined, hleft⟩ => ⟨.inl hjoined, hleft⟩⟩
    refine hor.elim (fun hjoined => hjoined) fun hjoins => ?_
    obtain ⟨rfl, hopen⟩ := (joins_iff hs).1 hjoins
    cases hl : s.listening with
    | idle =>
      rcases hj rfl with hclosed | hidle
      · rw [hopen] at hclosed
        cases hclosed
      · exact absurd hl hidle
    | active position => exact (h.active.1 ⟨position, hl⟩).1
    | ending => exact absurd (h.ending hl) hleft
  rw [or_iff_left hstays]
  exact ⟨by rw [hc, h.closed], by rw [hjoined, ha, h.active], fun hend => h.ending (he hend)⟩

theorem Attends.turns {joined left : Prop} (h : Attends joined left s)
    (hs : b.synchronizers[id]? = some s) (ht : Turns b id s s' r) :
    Attends (joined ∨ Joins id b r) (left ∨ Leaves id b r) s' := by
  cases ht with
  | joined hr hc hl hc' hl' =>
    have hleft : ¬ left := fun hleft => by
      rw [h.closed.2 hleft] at hc
      cases hc
    rw [joins_iff hs, leaves_iff hs]
    subst hr
    constructor <;> simp [hc, hc', hl', hleft]
  | left hr hc' hl' =>
    rw [leaves_iff hs]
    refine ⟨iff_of_true hc' (.inr hr), iff_of_false ?_ fun hn => hn.2 (.inr hr),
      fun _ => .inr hr⟩
    rintro ⟨position, hp⟩
    obtain ⟨hc, hl⟩ := hl' position hp
    exact (h.active.1 ⟨position, hl⟩).2 (h.closed.1 hc)
  | ended hr hl hc' hl' =>
    obtain ⟨hsubscribe, hne⟩ := hr.ne id
    exact h.goes_on hs hne (fun hr => absurd hr hsubscribe) hc' (by simp [hl, hl']) fun _ => hl
  | took hr hl hc' hl' =>
    obtain ⟨hsubscribe, hne⟩ := hr.ne id
    refine h.goes_on hs hne (fun hr => absurd hr hsubscribe) hc' ?_ fun hend => ?_
    · exact iff_of_true ⟨_, hl'⟩ ⟨_, hl⟩
    · cases hl'.symm.trans hend
  | stayed hr hj ht hc' hl' =>
    exact h.goes_on hs hr hj hc' (by rw [hl']) fun hend => hl' ▸ hend

theorem size_le_serve (b : Bus κ) (r : BusRequest κ) :
    b.synchronizers.size ≤ (b.serve r).synchronizers.size := by
  by_cases hr : ∃ channel name, r = .synchronizer channel name
  · obtain ⟨channel, name, rfl⟩ := hr
    exact (Nat.le_succ _).trans_eq (Array.size_push _).symm
  · simp only [not_exists] at hr
    exact (size_serve b hr).ge

theorem Joins.lt_size (h : Joins id b r) : id < b.synchronizers.size := by
  by_contra hle
  have hsub : (b.subscribe id).1 = .error .closed := by
    rw [subscribe, Array.getElem?_eq_none (not_lt.1 hle)]
  cases hsub.symm.trans h.2

/-- Nothing has happened to a synchronizer that is not there. -/
theorem not_once_of_none {p : Bus κ → BusRequest κ → Prop} {n : Nat}
    (hp : ∀ b r, p b r → id < b.synchronizers.size)
    (hs : ((withCapacity n).after rs).synchronizers[id]? = none) :
    ¬ Once p (withCapacity n) rs := by
  induction rs using List.reverseRecOn with
  | nil => exact fun h => h
  | append_singleton rs r ih =>
    rw [after_append, Array.getElem?_eq_none_iff] at hs
    have hle : ((withCapacity n).after rs).synchronizers.size ≤ id :=
      (size_le_serve _ r).trans hs
    rw [once_append_singleton, not_or]
    exact ⟨ih (Array.getElem?_eq_none hle), fun h => absurd (hp _ _ h) (not_lt.2 hle)⟩

/-- In every run the state of a synchronizer tells what has happened to it. -/
theorem attends_after {n : Nat} (hs : ((withCapacity n).after rs).synchronizers[id]? = some s) :
    Attends (Once (Joins id) (withCapacity n) rs) (Once (Leaves id) (withCapacity n) rs) s := by
  induction rs using List.reverseRecOn generalizing s with
  | nil => simp [after, withCapacity] at hs
  | append_singleton rs r ih =>
    rw [after_append] at hs
    rw [once_append_singleton, once_append_singleton]
    cases hb : ((withCapacity n).after rs).synchronizers[id]? with
    | none =>
      obtain ⟨hopen, hidle⟩ := fresh_of_serve hb hs
      have hle := Array.getElem?_eq_none_iff.1 hb
      have hjoined : ¬ (Once (Joins id) (withCapacity n) rs ∨ Joins id _ r) :=
        not_or.2 ⟨not_once_of_none (fun _ _ h => h.lt_size) hb,
          fun h => absurd h.lt_size (not_lt.2 hle)⟩
      have hleft : ¬ (Once (Leaves id) (withCapacity n) rs ∨ Leaves id _ r) :=
        not_or.2 ⟨not_once_of_none (fun _ _ h => h.2) hb, fun h => absurd h.2 (not_lt.2 hle)⟩
      constructor <;> simp [hopen, hidle, hjoined, hleft]
    | some s₀ =>
      have hplain := (((sound_withCapacity n).after rs).follows id s₀ hb).plain
      obtain ⟨s', hs', -, hturns⟩ := turns_serve hb hplain r
      obtain rfl := Option.some.inj (hs'.symm.trans hs)
      exact (ih hb).turns hb hturns

/-! ## How many a payload reaches -/

theorem runAll_snd (b : Bus κ) (ids : List Nat) :
    (b.runAll ids).2 = b.after (ids.map .run) := by
  induction ids generalizing b with
  | nil => rfl
  | cons id ids ih => exact ih (b.run id).2

/-- Taking what waits is no occasion to join or to leave. -/
theorem not_once_run {p : Bus κ → BusRequest κ → Prop} (hp : ∀ b id, ¬ p b (.run id))
    (ids : List Nat) : ¬ Once p b (ids.map .run) := by
  induction ids generalizing b with
  | nil => exact fun h => h
  | cons id ids ih => exact not_or.2 ⟨hp b id, ih⟩

/-- A synchronizer whose owner is gone stops when it runs. -/
theorem not_ending_runAll (h : b.Sound) {ids : List Nat} (hs : b.synchronizers[id]? = some s)
    (he : id ∈ ids ∨ s.listening ≠ .ending)
    (hs' : (b.after (ids.map .run)).synchronizers[id]? = some s') : s'.listening ≠ .ending := by
  induction ids generalizing b s with
  | nil =>
    obtain rfl := Option.some.inj (hs.symm.trans hs')
    exact he.resolve_left List.not_mem_nil
  | cons i ids ih =>
    obtain ⟨s₁, hs₁, -, hturns⟩ := turns_serve hs (h.follows id s hs).plain (.run i)
    refine ih (h.serve (.run i)) hs₁ ?_ hs'
    cases hturns with
    | joined hr | left hr => simp at hr
    | ended hr hl hc' hl' => exact .inr (by rw [hl']; exact nofun)
    | took hr hl hc' hl' => exact .inr (by rw [hl']; exact nofun)
    | stayed hr hj ht hc' hl' =>
      rw [hl']
      rcases he with he | he
      · rcases List.mem_cons.1 he with rfl | he
        · exact .inr (by rw [ht (.inl rfl)]; exact nofun)
        · exact .inl he
      · exact .inr he

/-- The elements that pass a test, counted by their places. -/
theorem countP_eq_length_filter_range {α : Type} (p : α → Bool) (a : Array α) :
    a.countP p = ((List.range a.size).filter fun i => (a[i]?).any p).length := by
  rw [← Array.countP_toList, ← Array.length_toList]
  simp only [← Array.getElem?_toList]
  induction a.toList using List.reverseRecOn with
  | nil => rfl
  | append_singleton l x ih =>
    have hinit : (List.range l.length).filter (fun i => ((l ++ [x])[i]?).any p) =
        (List.range l.length).filter fun i => (l[i]?).any p :=
      List.filter_congr fun i hi => by rw [List.getElem?_append_left (List.mem_range.1 hi)]
    rw [List.length_append, List.length_singleton, List.range_succ, List.filter_append, hinit,
      List.length_append, ← ih, List.countP_append]
    cases hx : p x <;> simp [hx]

theorem channel_after_runs (h : b.Sound) (ids : List Nat) :
    ((b.after (ids.map .run)).synchronizers[id]?).map Synchronizer.channel =
      (b.synchronizers[id]?).map Synchronizer.channel := by
  induction ids generalizing b with
  | nil => rfl
  | cons i ids ih =>
    refine (ih (h.serve (.run i))).trans ?_
    cases hs : b.synchronizers[id]? with
    | none =>
      rw [Array.getElem?_eq_none_iff, ← size_serve b (r := .run i) nofun] at hs
      rw [Array.getElem?_eq_none hs]
    | some s =>
      obtain ⟨s', hs', hchannel, -⟩ := turns_serve hs (h.follows id s hs).plain (.run i)
      rw [hs', Option.map_some, hchannel, Option.map_some]

theorem settle_snd (b : Bus κ) :
    b.settle.2 = b.after ((List.range b.synchronizers.size).map .run) := runAll_snd b _

/-- When every synchronizer has run, those are reached that have joined and not left. -/
theorem isReached_settle_iff {n : Nat}
    (hs : ((withCapacity n).after rs).settle.2.synchronizers[id]? = some s) :
    s.listening.isReached = true ↔
      Once (Joins id) (withCapacity n) rs ∧ ¬ Once (Leaves id) (withCapacity n) rs := by
  have hsound := (sound_withCapacity n).after (κ := κ) rs
  rw [settle_snd] at hs
  have hattends := attends_after (after_append _ rs _ ▸ hs)
  rw [once_append, once_append, or_iff_left (not_once_run (fun _ _ h => nomatch h.1) _),
    or_iff_left (not_once_run (fun _ _ h => by rcases h.1 with h | h <;> cases h) _)] at hattends
  have hending : s.listening ≠ .ending := by
    obtain ⟨s₀, hs₀, -⟩ := Option.map_eq_some_iff.1
      ((channel_after_runs hsound _).symm.trans (congrArg (Option.map Synchronizer.channel) hs))
    have hmem : id ∈ List.range ((withCapacity n).after rs).synchronizers.size :=
      List.mem_range.2 (Array.getElem?_eq_some_iff.1 hs₀).1
    exact not_ending_runAll hsound hs₀ (.inl hmem) hs
  rw [← hattends.active]
  cases hl : s.listening with
  | idle => simp [Listening.isReached]
  | active position => simp [Listening.isReached]
  | ending => exact absurd hl hending

/-- When every synchronizer has run, a payload reaches as many as have joined its channel and not
left. -/
theorem reached_settle (n : Nat) (rs : List (BusRequest κ)) (channel : String) :
    ∃ ids : List Nat, ids.Nodup ∧
      (∀ id, id ∈ ids ↔
        (((withCapacity n).after rs).synchronizers[id]?).map Synchronizer.channel = some channel ∧
          Once (Joins id) (withCapacity n) rs ∧ ¬ Once (Leaves id) (withCapacity n) rs) ∧
      ((withCapacity n).after rs).settle.2.reached channel = ids.length := by
  refine ⟨_, List.nodup_range.filter _, fun id => ?_, countP_eq_length_filter_range _ _⟩
  rw [← channel_after_runs ((sound_withCapacity n).after rs), ← settle_snd, List.mem_filter,
    List.mem_range]
  cases hs : ((withCapacity n).after rs).settle.2.synchronizers[id]? with
  | none => simp
  | some s =>
    have hlt := (Array.getElem?_eq_some_iff.1 hs).1
    rw [and_iff_right hlt, ← isReached_settle_iff hs]
    simp

end PodCache.Bus
