import PodCache.Proofs.Bus.Delivery

/-!
# Subscribing at once

A synchronizer keeps the task that takes its payloads in a slot with a lock.  A call of `subscribe`
sees whether the synchronizer is closed, waits for the lock, starts a task if the slot is empty,
puts it there and lets go of the lock.  However several calls interleave, they start one task at
most, none of them waits for ever, and they come to what one of them comes to alone
(`subscribes_of_crowd`).
-/

namespace PodCache

/-- How far a call of `subscribe` has come. -/
inductive Stage where
  | called
  /-- It has found the synchronizer open. -/
  | waiting
  /-- It has the lock. -/
  | holding
  /-- It has started a task, which is not in the slot yet. -/
  | started
  /-- It is done with the slot. -/
  | leaving
  | answered (result : Except Error Unit)
  deriving DecidableEq

/-- Calls of `subscribe` for one synchronizer that run at the same time. -/
structure Crowd where
  closed : Bool
  /-- The end of the topic, where tasks start. -/
  sent : Nat
  /-- Where the task in the slot started, if there is one. -/
  slot : Option Nat
  stages : List Stage
  /-- Where the tasks started that the calls have started. -/
  tasks : List Nat := []
  /-- The call that has the lock. -/
  holder : Option Nat := none
  deriving DecidableEq

namespace Crowd

/-- One of the calls comes to another stage. -/
def move (c : Crowd) (i : Nat) (stage : Stage) : Crowd := { c with stages := c.stages.set i stage }

/-- One of the calls takes its next step, if it can. -/
def step (c : Crowd) (i : Nat) : Crowd :=
  match c.stages[i]? with
  | some .called => c.move i (if c.closed then .answered (.error .closed) else .waiting)
  | some .waiting => if c.holder = none then { c.move i .holding with holder := some i } else c
  | some .holding =>
    if c.slot = none then { c.move i .started with tasks := c.sent :: c.tasks }
    else c.move i .leaving
  | some .started => { c.move i .leaving with slot := some c.sent }
  | some .leaving => { c.move i (.answered (.ok ())) with holder := none }
  | _ => c

/-- The calls take steps in some order. -/
def run (c : Crowd) (schedule : List Nat) : Crowd := schedule.foldl step c

/-- What the calls are answered. -/
def answer (c : Crowd) : Except Error Unit := if c.closed then .error .closed else .ok ()

/-- Every call has been answered. -/
def Done (c : Crowd) : Prop := ∀ stage ∈ c.stages, ∃ result, stage = .answered result

/-! ## What holds at all times -/

/-- No task has been started, or one has, which is in the slot, that was empty before. -/
def Settled (before : Option Nat) (c : Crowd) : Prop :=
  c.slot = before ∧ c.tasks = [] ∨ before = none ∧ c.slot = some c.sent ∧ c.tasks = [c.sent]

/-- What holds while a call is at a stage. -/
def Fits (before : Option Nat) (c : Crowd) (i : Nat) : Stage → Prop
  | .called => c.holder ≠ some i
  | .waiting => c.holder ≠ some i ∧ c.closed = false
  | .holding => c.holder = some i ∧ c.closed = false ∧ c.Settled before
  | .started =>
    c.holder = some i ∧ c.closed = false ∧ before = none ∧ c.slot = none ∧ c.tasks = [c.sent]
  | .leaving => c.holder = some i ∧ c.closed = false ∧ c.Settled before ∧ c.slot ≠ none
  | .answered result =>
    c.holder ≠ some i ∧ result = c.answer ∧ (c.closed = false → c.slot ≠ none)

/-- What holds at all times of calls that found a slot. -/
structure Orderly (before : Option Nat) (c : Crowd) : Prop where
  fits : ∀ (i : Nat) (stage : Stage), c.stages[i]? = some stage → c.Fits before i stage
  settled : c.holder = none → c.Settled before
  holder_lt : ∀ i, c.holder = some i → i < c.stages.length
  shut : c.closed = true → c.slot = before ∧ c.tasks = []

variable {c c' : Crowd} {before : Option Nat} {i : Nat} {stage : Stage}

/-- Whoever has the lock is one of the calls. -/
theorem Orderly.exists_stage (h : c.Orderly before) (hi : c.holder = some i) :
    ∃ stage, c.stages[i]? = some stage ∧ c.Fits before i stage := by
  have hget := List.getElem?_eq_getElem (h.holder_lt i hi)
  exact ⟨_, hget, h.fits i _ hget⟩

/-- Calls that do not have the lock do not mind what the one does that has it. -/
theorem Fits.of_other {j : Nat} (h : c.Fits before j stage) (hj : c.holder ≠ some j)
    (hj' : c'.holder ≠ some j) (hclosed : c'.closed = c.closed)
    (hslot : c.slot ≠ none → c'.slot ≠ none) : c'.Fits before j stage := by
  cases stage with
  | called => exact hj'
  | waiting => exact ⟨hj', hclosed.trans h.2⟩
  | holding | started | leaving => exact absurd h.1 hj
  | answered result =>
    refine ⟨hj', ?_, fun ho => hslot (h.2.2 (hclosed.symm.trans ho))⟩
    rw [answer, hclosed]
    exact h.2.1

/-- One call comes to a stage that fits, and the others do not mind. -/
theorem Orderly.move (h : c.Orderly before) (hi : i < c.stages.length)
    (hstages : c'.stages = c.stages.set i stage) (hfits : c'.Fits before i stage)
    (hothers : ∀ j stage, j ≠ i → c.Fits before j stage → c'.Fits before j stage)
    (hsettled : c'.holder = none → c'.Settled before)
    (hholder : ∀ j, c'.holder = some j → j = i ∨ c.holder = some j)
    (hshut : c'.closed = true → c'.slot = before ∧ c'.tasks = []) : c'.Orderly before := by
  refine ⟨fun j stage' hj => ?_, hsettled, fun j hj => ?_, hshut⟩
  · rw [hstages, List.getElem?_set] at hj
    split_ifs at hj with heq
    · obtain rfl := Option.some.inj hj
      exact heq ▸ hfits
    · exact hothers j stage' (Ne.symm heq) (h.fits j stage' hj)
  · rw [hstages, List.length_set]
    rcases hholder j hj with rfl | hj
    · exact hi
    · exact h.holder_lt j hj

/-- A call moves on without the lock. -/
theorem Orderly.move_outside (h : c.Orderly before) (hi : i < c.stages.length)
    (hfits : c.Fits before i stage) : (c.move i stage).Orderly before := by
  have same (j : Nat) (stage' : Stage) (hj : c.Fits before j stage') :
      (c.move i stage).Fits before j stage' := by
    cases stage' <;> exact hj
  exact h.move hi rfl (same i stage hfits) (fun j stage' _ => same j stage') h.settled
    (fun _ hj => .inr hj) h.shut

/-- The call that has the lock moves on, or one takes the lock that is free. -/
theorem Orderly.move_inside (h : c.Orderly before) (hi : i < c.stages.length)
    (hopen : c.closed = false)
    (hbefore : ∀ j, c.holder = some j → j = i) (hafter : ∀ j, c'.holder = some j → j = i)
    (hstages : c'.stages = c.stages.set i stage) (hfits : c'.Fits before i stage)
    (hsettled : c'.holder = none → c'.Settled before) (hclosed : c'.closed = c.closed)
    (hslot : c.slot ≠ none → c'.slot ≠ none) : c'.Orderly before :=
  h.move hi hstages hfits
    (fun j _ hj hfit => hfit.of_other (mt (hbefore j) hj) (mt (hafter j) hj) hclosed hslot)
    hsettled (fun j hj => .inl (hafter j hj)) fun hc => by
      rw [hclosed, hopen] at hc
      cases hc

theorem Orderly.step (h : c.Orderly before) (i : Nat) : (c.step i).Orderly before := by
  unfold Crowd.step
  cases hs : c.stages[i]? with
  | none => exact h
  | some stage =>
    have hfits := h.fits i stage hs
    obtain ⟨hi, -⟩ := List.getElem?_eq_some_iff.1 hs
    have alone {o : Option Nat} (ho : o = some i) (j : Nat) (hj : o = some j) : j = i :=
      (Option.some.inj (ho.symm.trans hj)).symm
    cases stage with
    | called =>
      dsimp only
      refine h.move_outside hi ?_
      split_ifs with hc
      · exact ⟨hfits, (if_pos hc).symm, fun ho => by rw [hc] at ho; cases ho⟩
      · exact ⟨hfits, Bool.eq_false_of_not_eq_true hc⟩
    | waiting =>
      dsimp only
      split_ifs with hfree
      · refine h.move_inside hi hfits.2 (fun j hj => by rw [hfree] at hj; cases hj) (alone rfl) rfl
          ⟨rfl, hfits.2, h.settled hfree⟩ nofun rfl id
      · exact h
    | holding =>
      obtain ⟨hholder, hopen, hsettled⟩ := hfits
      dsimp only
      split_ifs with hslot
      · have hnone : before = none ∧ c.tasks = [] := by
          rcases hsettled with ⟨hb, ht⟩ | ⟨-, hb, -⟩
          · exact ⟨hb.symm.trans hslot, ht⟩
          · rw [hslot] at hb
            cases hb
        refine h.move_inside hi hopen (alone hholder) (alone hholder) rfl
          ⟨hholder, hopen, hnone.1, hslot, ?_⟩ (fun hn => ?_) rfl id
        · show c.sent :: c.tasks = [c.sent]
          rw [hnone.2]
        · cases hholder.symm.trans hn
      · exact h.move_inside hi hopen (alone hholder) (alone hholder) rfl
          ⟨hholder, hopen, hsettled, hslot⟩ (fun _ => hsettled) rfl id
    | started =>
      obtain ⟨hholder, hopen, hbefore, hslot, htasks⟩ := hfits
      have hsettled : Settled before { c.move i .leaving with slot := some c.sent } :=
        .inr ⟨hbefore, rfl, htasks⟩
      exact h.move_inside hi hopen (alone hholder) (alone hholder) rfl
        ⟨hholder, hopen, hsettled, nofun⟩ (fun _ => hsettled) rfl (fun _ => nofun)
    | leaving =>
      obtain ⟨hholder, hopen, hsettled, hslot⟩ := hfits
      have hresult : .ok () = c.answer := by
        rw [answer, hopen]
        rfl
      exact h.move_inside hi hopen (alone hholder) nofun rfl ⟨nofun, hresult, fun _ => hslot⟩
        (fun _ => hsettled) rfl id
    | answered result => exact h

theorem Orderly.run (h : c.Orderly before) (schedule : List Nat) :
    (c.run schedule).Orderly before := by
  induction schedule generalizing c with
  | nil => exact h
  | cons i schedule ih => exact ih (h.step i)

/-! ## No call waits for ever -/

/-- The steps that a call has before it. -/
def stepsLeft : Stage → Nat
  | .called => 5
  | .waiting => 4
  | .holding => 3
  | .started => 2
  | .leaving => 1
  | .answered _ => 0

/-- The steps that all calls together have before them. -/
def left (c : Crowd) : Nat := (c.stages.map stepsLeft).sum

theorem left_lt_of_move {next : Stage} (hi : c.stages[i]? = some stage)
    (hstages : c'.stages = c.stages.set i next) (hlt : stepsLeft next < stepsLeft stage) :
    c'.left < c.left := by
  have hset : ∀ (stages : List Stage) (i : Nat), stages[i]? = some stage →
      ((stages.set i next).map stepsLeft).sum < (stages.map stepsLeft).sum := by
    intro stages
    induction stages with
    | nil => exact fun _ h => nomatch h
    | cons first stages ih =>
      intro i hi
      cases i with
      | zero =>
        obtain rfl := Option.some.inj hi
        simp only [List.set_cons_zero, List.map_cons, List.sum_cons]
        omega
      | succ i =>
        have hrest := ih i hi
        simp only [List.set_cons_succ, List.map_cons, List.sum_cons]
        omega
  rw [left, left, hstages]
  exact hset c.stages i hi

/-- As long as a call has not been answered, one of the calls can go on. -/
theorem Orderly.exists_step (h : c.Orderly before) (hd : ¬ c.Done) :
    ∃ i, (c.step i).left < c.left := by
  cases hholder : c.holder with
  | some i =>
    obtain ⟨stage, hi, hfits⟩ := h.exists_stage hholder
    refine ⟨i, ?_⟩
    unfold Crowd.step
    rw [hi]
    cases stage with
    | called => exact absurd hholder hfits
    | waiting | answered => exact absurd hholder hfits.1
    | holding =>
      dsimp only
      split_ifs <;> exact left_lt_of_move hi rfl (by decide)
    | started => exact left_lt_of_move hi rfl (by decide)
    | leaving => exact left_lt_of_move hi rfl (by decide)
  | none =>
    simp only [Done, not_forall] at hd
    obtain ⟨stage, hmem, hopen⟩ := hd
    obtain ⟨i, hi⟩ := List.mem_iff_getElem?.1 hmem
    have hfits := h.fits i stage hi
    refine ⟨i, ?_⟩
    unfold Crowd.step
    rw [hi]
    cases stage with
    | called =>
      dsimp only
      split_ifs <;> exact left_lt_of_move hi rfl (by decide)
    | waiting =>
      dsimp only
      rw [if_pos hholder]
      exact left_lt_of_move hi rfl (by decide)
    | holding | started | leaving => cases hholder.symm.trans hfits.1
    | answered result => exact absurd ⟨result, rfl⟩ hopen

/-- Whatever has happened, the calls can go on until all have been answered. -/
theorem Orderly.exists_done (h : c.Orderly before) : ∃ schedule, (c.run schedule).Done := by
  induction hn : c.left using Nat.strong_induction_on generalizing c with
  | _ n ih =>
    by_cases hd : c.Done
    · exact ⟨[], hd⟩
    · obtain ⟨i, hlt⟩ := h.exists_step hd
      obtain ⟨schedule, hdone⟩ := ih _ (hn ▸ hlt) (h.step i) rfl
      exact ⟨i :: schedule, hdone⟩

/-! ## The end -/

theorem step_frame (c : Crowd) (i : Nat) : (c.step i).closed = c.closed ∧
    (c.step i).sent = c.sent ∧ (c.step i).stages.length = c.stages.length := by
  unfold step
  split <;> (try split_ifs) <;> exact ⟨rfl, rfl, by simp [move]⟩

theorem run_frame (c : Crowd) (schedule : List Nat) : (c.run schedule).closed = c.closed ∧
    (c.run schedule).sent = c.sent ∧
    (c.run schedule).stages.length = c.stages.length := by
  induction schedule generalizing c with
  | nil => exact ⟨rfl, rfl, rfl⟩
  | cons i schedule ih =>
    obtain ⟨hclosed, hsent, hlength⟩ := c.step_frame i
    obtain ⟨hclosed', hsent', hlength'⟩ := ih (c.step i)
    exact ⟨hclosed'.trans hclosed, hsent'.trans hsent, hlength'.trans hlength⟩

/-- Nobody has the lock when all calls have been answered. -/
theorem Orderly.holder_of_done (h : c.Orderly before) (hd : c.Done) : c.holder = none := by
  cases hholder : c.holder with
  | none => rfl
  | some i =>
    obtain ⟨stage, hi, hfits⟩ := h.exists_stage hholder
    obtain ⟨result, rfl⟩ := hd stage (List.mem_of_getElem? hi)
    exact absurd hholder hfits.1

/-- All calls are given the same answer. -/
theorem Orderly.answers (h : c.Orderly before) (hd : c.Done) {stage : Stage}
    (hm : stage ∈ c.stages) :
    stage = .answered c.answer ∧ (c.closed = false → c.slot ≠ none) := by
  obtain ⟨i, hi⟩ := List.mem_iff_getElem?.1 hm
  obtain ⟨result, rfl⟩ := hd stage hm
  obtain ⟨-, hanswer, hslot⟩ := h.fits i _ hi
  exact ⟨congrArg Stage.answered hanswer, hslot⟩

/-- At no time have the calls started more than one task. -/
theorem Orderly.length_tasks_le (h : c.Orderly before) : c.tasks.length ≤ 1 := by
  have settled (hs : c.Settled before) : c.tasks.length ≤ 1 := by
    rcases hs with ⟨-, ht⟩ | ⟨-, -, ht⟩ <;> simp [ht]
  cases hholder : c.holder with
  | none => exact settled (h.settled hholder)
  | some i =>
    obtain ⟨stage, -, hfits⟩ := h.exists_stage hholder
    cases stage with
    | called => exact absurd hholder hfits
    | waiting | answered => exact absurd hholder hfits.1
    | holding => exact settled hfits.2.2
    | started => rw [hfits.2.2.2.2, List.length_singleton]
    | leaving => exact settled hfits.2.2.1

end Crowd

/-- Where the task of a synchronizer is that takes payloads. -/
def Listening.slot : Listening → Option Nat
  | .active position => some position
  | .idle | .ending => none

namespace Bus

variable {κ : Type} {b : Bus κ} {id : Nat} {s : Synchronizer κ}

/-- A number of calls of `subscribe` that find a synchronizer of the bus. -/
def crowd (b : Bus κ) (s : Synchronizer κ) (count : Nat) : Crowd where
  closed := s.closed
  sent := (b.topic s.channel).sent
  slot := s.listening.slot
  stages := List.replicate count .called

theorem orderly_crowd (b : Bus κ) (s : Synchronizer κ) (count : Nat) :
    (b.crowd s count).Orderly s.listening.slot := by
  refine ⟨fun i stage hi => ?_, fun _ => .inl ⟨rfl, rfl⟩, nofun, fun _ => ⟨rfl, rfl⟩⟩
  obtain rfl := List.eq_of_mem_replicate (List.mem_of_getElem? hi)
  exact nofun

theorem subscribe_eq (hs : b.synchronizers[id]? = some s) :
    b.subscribe id =
      if s.closed then (.error .closed, b)
      else if s.listening = .idle then
        (.ok (), b.modify id fun s => { s with listening := .active (b.topic s.channel).sent })
      else (.ok (), b) := by
  rw [subscribe, hs]

/-- What calls of `subscribe` at once come to: the same as one of them alone, whose answer all are
given. -/
structure Subscribes (b : Bus κ) (id : Nat) (s : Synchronizer κ) (c : Crowd) : Prop where
  answers : ∀ stage ∈ c.stages, stage = .answered (b.subscribe id).1
  /-- The task in the slot is the one that the synchronizer has, and it has been started only if
  there was none before. -/
  slot : ∃ s', (b.subscribe id).2.synchronizers[id]? = some s' ∧ c.slot = s'.listening.slot ∧
    c.tasks = if s'.listening = s.listening then [] else s'.listening.slot.toList

/-- Whatever the order in which calls at once take their steps, they start one task at most and can
go on, and when all have been answered they have come to what one of them comes to alone. -/
theorem subscribes_of_crowd (hs : b.synchronizers[id]? = some s)
    (he : s.listening = .ending → s.closed = true) (count : Nat) (schedule : List Nat) :
    ((b.crowd s count).run schedule).tasks.length ≤ 1 ∧
      (∃ more, (((b.crowd s count).run schedule).run more).Done) ∧
      (((b.crowd s count).run schedule).Done → 0 < count →
        b.Subscribes id s ((b.crowd s count).run schedule)) := by
  have h := (orderly_crowd b s count).run schedule
  obtain ⟨hclosed, hsent, hlength⟩ := (b.crowd s count).run_frame schedule
  generalize (b.crowd s count).run schedule = c at h hclosed hsent hlength
  refine ⟨h.length_tasks_le, h.exists_done, fun hd hcount => ?_⟩
  have hpos : 0 < c.stages.length := by
    rw [hlength, crowd, List.length_replicate]
    exact hcount
  have hslot : c.closed = false → c.slot ≠ none := (h.answers hd (List.getElem_mem hpos)).2
  have hanswers : ∀ stage ∈ c.stages, stage = .answered c.answer :=
    fun stage hm => (h.answers hd hm).1
  change c.closed = s.closed at hclosed
  change c.sent = (b.topic s.channel).sent at hsent
  rw [Crowd.answer] at hanswers
  have hsettled := h.settled (h.holder_of_done hd)
  cases hc : s.closed with
  | true =>
    rw [hclosed, hc] at hanswers
    obtain ⟨hslot, htasks⟩ := h.shut (hclosed.trans hc)
    have hsub : b.subscribe id = (.error .closed, b) := by
      rw [subscribe_eq hs, if_pos hc]
    exact ⟨by rwa [hsub], s, by rwa [hsub], hslot, by rw [if_pos rfl, htasks]⟩
  | false =>
    rw [hclosed, hc] at hanswers
    have hfull : c.slot ≠ none := hslot (hclosed.trans hc)
    have hopen : ¬ s.closed = true := by rw [hc]; exact Bool.false_ne_true
    by_cases hl : s.listening = .idle
    · have hsub : b.subscribe id = (.ok (), b.modify id fun s =>
          { s with listening := .active (b.topic s.channel).sent }) := by
        rw [subscribe_eq hs, if_neg hopen, if_pos hl]
      rcases hsettled with ⟨hbefore, -⟩ | ⟨-, hstarted, htasks⟩
      · rw [hl] at hbefore
        exact absurd hbefore hfull
      · refine ⟨by rwa [hsub], { s with listening := .active (b.topic s.channel).sent }, ?_, ?_, ?_⟩
        · rw [hsub, modify, Array.getElem?_modify, if_pos rfl, hs]
          rfl
        · rw [hstarted, hsent]
          rfl
        · rw [hl, htasks, hsent]
          rfl
    · have hsub : b.subscribe id = (.ok (), b) := by
        rw [subscribe_eq hs, if_neg hopen, if_neg hl]
      rcases hsettled with ⟨hbefore, htasks⟩ | ⟨hnone, -⟩
      · exact ⟨by rwa [hsub], s, by rwa [hsub], hbefore, by rw [if_pos rfl, htasks]⟩
      · cases hlistening : s.listening with
        | idle => exact absurd hlistening hl
        | active position =>
          rw [hlistening] at hnone
          cases hnone
        | ending => exact absurd (he hlistening) hopen

end Bus

end PodCache
