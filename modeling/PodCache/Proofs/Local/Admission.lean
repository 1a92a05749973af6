import PodCache.Local.Admission
import PodCache.Proofs.Local.Cuts

/-!
# What an admission policy tracks

A policy tracks the entries of its three segments, and no key twice (`Admission.Holds p s`).  Moving
entries between segments changes nothing about what is tracked as a whole, which `Admission.Tracks`
speaks of: an offered key is tracked with its new cost, and what gives way for it is told; what is
evicted is told as well, and frees the cost that was asked for.
-/

namespace PodCache

open RecencyList (without costSum perm_cons_without Cuts)

/-- The entries of the segments of a policy, the most recently used first in each. -/
structure Segments where
  window : List (Entry Unit)
  probation : List (Entry Unit)
  protection : List (Entry Unit)

/-- The entries of all segments. -/
def Segments.all (s : Segments) : List (Entry Unit) := s.window ++ s.probation ++ s.protection

/-- The entries of all segments in the order in which they are evicted. -/
def Segments.order (s : Segments) : List (Entry Unit) :=
  s.probation.reverse ++ s.protection.reverse ++ s.window.reverse

instance : Append Segments where
  append s s' := ⟨s.window ++ s'.window, s.probation ++ s'.probation, s.protection ++ s'.protection⟩

namespace Admission

/-- The segments of a policy have these entries, and share no key. -/
structure Holds (p : Admission) (s : Segments) : Prop where
  window : p.window.Holds s.window
  probation : p.probation.Holds s.probation
  protection : p.protection.Holds s.protection
  nodup : (s.all.map Entry.key).Nodup

/-- The entries that a policy tracks, in any order. -/
def Tracks (p : Admission) (es : List (Entry Unit)) : Prop := ∃ s, p.Holds s ∧ s.all.Perm es

variable {p : Admission} {s : Segments} {es : List (Entry Unit)} {key : String}

/-! ## Moving between segments -/

theorem nodup_of_perm {α : Type} {es es' : List (Entry α)} (h : es.Perm es')
    (hn : (es'.map Entry.key).Nodup) : (es.map Entry.key).Nodup :=
  (h.map Entry.key).nodup_iff.2 hn

theorem nodup_cons_without {α : Type} {es : List (Entry α)} (hn : (es.map Entry.key).Nodup)
    (key : String) (value : α) (cost : Nat) :
    (((⟨key, value, cost⟩ : Entry α) :: without es key).map Entry.key).Nodup := by
  refine List.nodup_cons.2 ⟨fun hk => ?_, hn.sublist (List.filter_sublist.map _)⟩
  obtain ⟨e, he, hek⟩ := List.mem_map.1 hk
  exact (RecencyList.mem_without.1 he).2 hek

theorem not_mem_of_perm_cons {α : Type} {es rest : List (Entry α)} {e : Entry α}
    (h : es.Perm (e :: rest)) (hn : (es.map Entry.key).Nodup) : e.key ∉ rest.map Entry.key :=
  (List.nodup_cons.1 ((h.map Entry.key).nodup_iff.1 hn)).1

/-- An entry that is taken out of another segment goes on probation. -/
theorem Holds.putOnProbation {q : Admission} {e : Entry Unit} {w t : List (Entry Unit)}
    (h : p.Holds s) (hw : q.window.Holds w) (ht : q.protection.Holds t)
    (hp : q.probation = (p.probation.pushFront e.key () e.cost).2)
    (hs : s.all.Perm (e :: (w ++ s.probation ++ t))) : q.Holds ⟨w, e :: s.probation, t⟩ := by
  have hall : (Segments.mk w (e :: s.probation) t).all.Perm s.all := by
    refine List.Perm.trans ?_ hs.symm
    rw [Segments.all, List.perm_iff_count]
    intro a
    simp only [List.count_append, List.count_cons]
    omega
  have he : e.key ∉ s.probation.map Entry.key := fun hk =>
    not_mem_of_perm_cons hs h.nodup (by simp [List.mem_map.1 hk])
  have hpush := h.probation.pushFront e.key () e.cost
  rw [RecencyList.without_of_not_mem he, ← hp] at hpush
  exact ⟨hw, hpush, ht, nodup_of_perm hall h.nodup⟩

/-- The oldest protected entry goes back on probation. -/
theorem Holds.demoteOldest {e : Entry Unit} {rest : RecencyList Unit} (h : p.Holds s)
    (hpop : p.protection.popBack = some (e, rest)) :
    ∃ front, s.protection = front ++ [e] ∧
      Holds { p with
        protection := rest, probation := (p.probation.pushFront e.key () e.cost).2 }
        ⟨s.window, e :: s.probation, front⟩ := by
  obtain ⟨front, hfront, hrest⟩ := h.protection.of_popBack hpop
  have hs : s.all.Perm (e :: (s.window ++ s.probation ++ front)) := by
    rw [Segments.all, hfront, List.perm_iff_count]
    intro a
    simp only [List.count_append, List.count_cons, List.count_nil]
    omega
  exact ⟨front, hfront, h.putOnProbation h.window hrest rfl hs⟩

@[simp] theorem noteSum_false (p : Admission) : p.noteSum false = p := by
  rw [noteSum, Bool.or_false]

/-- What is noted about sums does not concern the entries. -/
theorem Holds.noteSum (h : p.Holds s) (overflows : Bool) : (p.noteSum overflows).Holds s :=
  ⟨h.window, h.probation, h.protection, h.nodup⟩

/-- The oldest entry of the window. -/
theorem Holds.popWindow {e : Entry Unit} {rest : RecencyList Unit} (h : p.Holds s)
    (hpop : p.window.popBack = some (e, rest)) :
    ∃ front, s.window = front ++ [e] ∧ rest.Holds front ∧
      s.all.Perm (e :: (front ++ s.probation ++ s.protection)) := by
  obtain ⟨front, hfront, hrest⟩ := h.window.of_popBack hpop
  refine ⟨front, hfront, hrest, ?_⟩
  rw [Segments.all, hfront, List.perm_iff_count]
  intro a
  simp only [List.count_append, List.count_cons, List.count_nil]
  omega

/-- It goes on probation. -/
theorem Holds.acceptOldest {e : Entry Unit} {rest : RecencyList Unit} (h : p.Holds s)
    (hpop : p.window.popBack = some (e, rest)) :
    ∃ front, s.window = front ++ [e] ∧
      Holds { p.competing rest e.cost with
        probation := (p.probation.pushFront e.key () e.cost).2 }
        ⟨front, e :: s.probation, s.protection⟩ := by
  obtain ⟨front, hfront, hrest, hs⟩ := h.popWindow hpop
  exact ⟨front, hfront, h.putOnProbation hrest h.protection rfl hs⟩

/-- It leaves for no other segment. -/
theorem Holds.rejectOldest {e : Entry Unit} {rest : RecencyList Unit} (h : p.Holds s)
    (hpop : p.window.popBack = some (e, rest)) :
    ∃ front, s.window = front ++ [e] ∧
      (p.competing rest e.cost).Holds ⟨front, s.probation, s.protection⟩ := by
  obtain ⟨front, hfront, hrest, hs⟩ := h.popWindow hpop
  have hn := (List.nodup_cons.1 ((hs.map Entry.key).nodup_iff.1 h.nodup)).2
  exact ⟨front, hfront, hrest, h.probation, h.protection, hn⟩

/-- Protected entries go back on probation, one after the other, until the rest fits. -/
inductive Demotes : Admission → Admission → Prop
  | fits {p : Admission} (hfits : p.protection.totalCost ≤ p.protectionCapacity) : Demotes p p
  | demotes {p q : Admission} {e : Entry Unit} {rest : RecencyList Unit}
    (hover : p.protectionCapacity < p.protection.totalCost)
    (hpop : p.protection.popBack = some (e, rest))
    (hrest : Demotes { p with
      protection := rest, probation := (p.probation.pushFront e.key () e.cost).2 } q) :
    Demotes p q

/-- Entries of the window go on probation or are rejected, one after the other, until the rest
fits. -/
inductive Drains : Admission → List String → Admission → Prop
  | fits {p : Admission} (hfits : p.window.totalCost ≤ p.windowCapacity) : Drains p [] p
  | accepts {p q : Admission} {dropped : List String} {e : Entry Unit} {rest : RecencyList Unit}
    (hover : p.windowCapacity < p.window.totalCost) (hpop : p.window.popBack = some (e, rest))
    (ha : p.accepts e = true)
    (hrest : Drains { p.competing rest e.cost with
      probation := (p.probation.pushFront e.key () e.cost).2 } dropped q) :
    Drains p dropped q
  | rejects {p q : Admission} {dropped : List String} {e : Entry Unit} {rest : RecencyList Unit}
    (hover : p.windowCapacity < p.window.totalCost) (hpop : p.window.popBack = some (e, rest))
    (ha : p.accepts e = false) (hrest : Drains (p.competing rest e.cost) dropped q) :
    Drains p (e.key :: dropped) q

theorem popBack_ne_none {l : RecencyList Unit} {es : List (Entry Unit)} {capacity : Nat}
    (h : l.Holds es) (hover : capacity < l.totalCost) : l.popBack ≠ none := by
  intro hp
  have hle := h.totalCost_le
  rw [h.popBack_eq_none_iff.1 hp, RecencyList.costSum_nil] at hle
  omega

/-- Demotion never lacks an entry. -/
theorem Holds.demotes (h : p.Holds s) : p.Demotes p.demoteOverflow := by
  fun_induction Admission.demoteOverflow p generalizing s with
  | case1 p hover hp => exact absurd hp (popBack_ne_none h.protection hover)
  | case2 p hover e rest hp ih =>
    obtain ⟨front, -, hs⟩ := h.demoteOldest hp
    exact .demotes hover hp (ih hs)
  | case3 p hfits => exact .fits (Nat.le_of_not_lt hfits)

/-- Draining the window never lacks an entry. -/
theorem Holds.drains (h : p.Holds s) : p.Drains p.drainWindow.1 p.drainWindow.2 := by
  fun_induction Admission.drainWindow p generalizing s with
  | case1 p hover hp => exact absurd hp (popBack_ne_none h.window hover)
  | case2 p hover e rest hp ha ih =>
    obtain ⟨front, -, hs⟩ := h.acceptOldest hp
    exact .accepts hover hp ha (ih hs)
  | case3 p hover e rest hp ha rejected q heq ih =>
    obtain ⟨front, -, hs⟩ := h.rejectOldest hp
    have hrest := ih hs
    rw [heq] at hrest
    exact .rejects hover hp (Bool.eq_false_iff.2 ha) hrest
  | case4 p hfits => exact .fits (Nat.le_of_not_lt hfits)

/-- What does not fit into protection goes back on probation, in its order. -/
theorem Demotes.holds {q : Admission} (hd : p.Demotes q) (h : p.Holds s) :
    ∃ kept demoted, s.protection = kept ++ demoted ∧
      q.Holds ⟨s.window, demoted ++ s.probation, kept⟩ := by
  induction hd generalizing s with
  | fits hfits => exact ⟨s.protection, [], by simp, h⟩
  | @demotes p q e rest hover hpop _ ih =>
    obtain ⟨front, hfront, hs⟩ := h.demoteOldest hpop
    obtain ⟨kept, demoted, hsplit, hs'⟩ := ih hs
    refine ⟨kept, demoted ++ [e], ?_, by simpa using hs'⟩
    rw [hfront, ← List.append_assoc]
    exact congrArg (· ++ [e]) hsplit

theorem Holds.demoteOverflow (h : p.Holds s) :
    ∃ kept demoted, s.protection = kept ++ demoted ∧
      p.demoteOverflow.Holds ⟨s.window, demoted ++ s.probation, kept⟩ :=
  h.demotes.holds h

/-- A key that is in no other segment goes to the front of the protected ones. -/
theorem Holds.pushProtection (h : p.Holds s) (cost : Nat)
    (hk : key ∉ (s.window ++ s.probation).map Entry.key) :
    Holds { p with protection := (p.protection.pushFront key () cost).2 }
      ⟨s.window, s.probation, ⟨key, (), cost⟩ :: without s.protection key⟩ := by
  rw [List.map_append, List.mem_append, not_or] at hk
  have hall : (Segments.mk s.window s.probation
      (⟨key, (), cost⟩ :: without s.protection key)).all.Perm
      (⟨key, (), cost⟩ :: without s.all key) := by
    rw [Segments.all, Segments.all, RecencyList.without_append, RecencyList.without_append,
      RecencyList.without_of_not_mem hk.1, RecencyList.without_of_not_mem hk.2]
    exact List.perm_middle
  exact ⟨h.window, h.probation, h.protection.pushFront key () cost,
    nodup_of_perm hall (nodup_cons_without h.nodup key () cost)⟩

/-- It is protected with a new cost. -/
theorem Holds.protect (h : p.Holds s) (cost : Nat)
    (hk : key ∉ (s.window ++ s.probation).map Entry.key) :
    ∃ kept demoted, ⟨key, (), cost⟩ :: without s.protection key = kept ++ demoted ∧
      (p.protect key cost).Holds ⟨s.window, demoted ++ s.probation, kept⟩ :=
  (h.pushProtection cost hk).demoteOverflow

/-- The overflow of the window goes on probation or is rejected, and the rest stays. -/
theorem Drains.holds {q : Admission} {dropped : List String} (hd : p.Drains dropped q)
    (h : p.Holds s) :
    ∃ front accepted rejected, (accepted ++ rejected ++ front).Perm s.window ∧
      dropped = rejected.map Entry.key ∧
      q.Holds ⟨front, accepted ++ s.probation, s.protection⟩ := by
  induction hd generalizing s with
  | fits hfits =>
    exact ⟨s.window, [], [], by simp, rfl, h⟩
  | @accepts p q dropped e rest hover hpop ha _ ih =>
    obtain ⟨front, hfront, hs⟩ := h.acceptOldest hpop
    obtain ⟨front', accepted, rejected, hperm, hd, hs'⟩ := ih hs
    refine ⟨front', accepted ++ [e], rejected, ?_, hd, by simpa using hs'⟩
    rw [hfront]
    rw [List.perm_iff_count] at hperm ⊢
    intro a
    have hcount := hperm a
    simp only [List.count_append] at hcount ⊢
    omega
  | @rejects p q dropped e rest hover hpop ha _ ih =>
    obtain ⟨front, hfront, hs⟩ := h.rejectOldest hpop
    obtain ⟨front', accepted, rejected, hperm, hd, hs'⟩ := ih hs
    refine ⟨front', accepted, e :: rejected, ?_, congrArg (e.key :: ·) hd, hs'⟩
    rw [hfront]
    rw [List.perm_iff_count] at hperm ⊢
    intro a
    have hcount := hperm a
    simp only [List.count_append, List.count_cons, List.count_nil] at hcount ⊢
    omega

theorem Holds.drainWindow (h : p.Holds s) :
    ∃ front accepted dropped, (accepted ++ dropped ++ front).Perm s.window ∧
      p.drainWindow.1 = dropped.map Entry.key ∧
      p.drainWindow.2.Holds ⟨front, accepted ++ s.probation, s.protection⟩ :=
  h.drains.holds h

/-! ## Requests -/

theorem Holds.not_mem_of_probation (h : p.Holds s) (hk : key ∈ s.probation.map Entry.key) :
    key ∉ s.window.map Entry.key := fun hw => by
  have hn := h.nodup
  rw [Segments.all, List.append_assoc, List.map_append, List.nodup_append'] at hn
  exact hn.2.2 hw (by simp [List.mem_map.1 hk])

theorem Holds.not_mem_of_protection (h : p.Holds s) (hk : key ∈ s.protection.map Entry.key) :
    key ∉ (s.window ++ s.probation).map Entry.key := fun hw => by
  have hn := h.nodup
  rw [Segments.all, List.map_append, List.nodup_append'] at hn
  exact hn.2.2 hw hk

theorem Holds.not_mem_protection (h : p.Holds s)
    (hk : key ∈ s.window.map Entry.key ∨ key ∈ s.probation.map Entry.key) :
    key ∉ s.protection.map Entry.key := fun ht =>
  h.not_mem_of_protection ht (by rwa [List.map_append, List.mem_append])

/-- A key on probation is taken out, and is then in no segment. -/
theorem Holds.takeFromProbation {e : Entry Unit} {rest : RecencyList Unit} (h : p.Holds s)
    (hr : p.probation.remove key = some (e, rest)) :
    e ∈ s.probation ∧ e.key = key ∧
      Holds { p with probation := rest } ⟨s.window, without s.probation key, s.protection⟩ ∧
      key ∉ (s.window ++ without s.probation key).map Entry.key ∧
      key ∉ s.protection.map Entry.key := by
  obtain ⟨he, rfl, hrest⟩ := h.probation.of_remove hr
  have hb : e.key ∈ s.probation.map Entry.key := List.mem_map_of_mem he
  have hsub : (s.window ++ without s.probation e.key ++ s.protection).Sublist s.all :=
    (List.filter_sublist.append_left _).append_right _
  have hne : e.key ∉ (s.window ++ without s.probation e.key).map Entry.key := by
    rw [List.map_append, List.mem_append, not_or]
    refine ⟨h.not_mem_of_probation hb, fun hk => ?_⟩
    obtain ⟨d, hd, hde⟩ := List.mem_map.1 hk
    exact (RecencyList.mem_without.1 hd).2 hde
  exact ⟨he, rfl, ⟨h.window, hrest, h.protection, h.nodup.sublist (hsub.map _)⟩, hne,
    h.not_mem_protection (.inr hb)⟩

/-- It is protected with a new cost. -/
theorem Holds.protect_probation {e : Entry Unit} {rest : RecencyList Unit} (h : p.Holds s)
    (hr : p.probation.remove key = some (e, rest)) (cost : Nat) :
    e ∈ s.probation ∧ e.key = key ∧ ∃ kept demoted,
      ⟨key, (), cost⟩ :: s.protection = kept ++ demoted ∧
      (Admission.protect { p with probation := rest } key cost).Holds
        ⟨s.window, demoted ++ without s.probation key, kept⟩ := by
  obtain ⟨he, hk, htaken, hne, ht⟩ := h.takeFromProbation hr
  have hput := htaken.protect cost hne
  rw [RecencyList.without_of_not_mem ht] at hput
  exact ⟨he, hk, hput⟩

/-- What reads of a key do to the segments: it becomes the one used last in its segment, but on
probation it gets protection. -/
inductive Read (p : Admission) (key : String) (s : Segments) : Segments → Prop
  | inWindow {e : Entry Unit} (he : e ∈ s.window) (hk : e.key = key) :
    Read p key s ⟨e :: without s.window key, s.probation, s.protection⟩
  | isProtected {e : Entry Unit} (he : e ∈ s.protection) (hk : e.key = key) :
    Read p key s ⟨s.window, s.probation, e :: without s.protection key⟩
  | promoted {e : Entry Unit} {kept demoted : List (Entry Unit)} (he : e ∈ s.probation)
    (hk : e.key = key) (hsplit : e :: s.protection = kept ++ demoted) :
    Read p key s ⟨s.window, demoted ++ without s.probation key, kept⟩
  | untracked (hk : key ∉ s.all.map Entry.key) : Read p key s s

/-- What an offered key does to the segments: in the main segment it gets protection, otherwise it
starts in the window, whose overflow is rejected or goes on probation. -/
inductive Offered (p : Admission) (key : String) (cost : Nat) (s : Segments) :
    List (Entry Unit) → Segments → Prop
  | isProtected {kept demoted : List (Entry Unit)} (hk : key ∈ s.protection.map Entry.key)
    (hsplit : ⟨key, (), cost⟩ :: without s.protection key = kept ++ demoted) :
    Offered p key cost s [] ⟨s.window, demoted ++ s.probation, kept⟩
  | promoted {kept demoted : List (Entry Unit)} (hk : key ∈ s.probation.map Entry.key)
    (hsplit : ⟨key, (), cost⟩ :: s.protection = kept ++ demoted) :
    Offered p key cost s [] ⟨s.window, demoted ++ without s.probation key, kept⟩
  | windowed {front accepted dropped : List (Entry Unit)}
    (hb : key ∉ s.probation.map Entry.key) (ht : key ∉ s.protection.map Entry.key)
    (hperm : (accepted ++ dropped ++ front).Perm (⟨key, (), cost⟩ :: without s.window key)) :
    Offered p key cost s dropped ⟨front, accepted ++ s.probation, s.protection⟩

/-- The policy after uses of a key have been counted. -/
def counted (p : Admission) (key : String) (count : Nat) : Admission :=
  { p with sketch := p.sketch.incrementMany key count }

theorem Holds.counted (h : p.Holds s) (key : String) (count : Nat) :
    (p.counted key count).Holds s :=
  ⟨h.window, h.probation, h.protection, h.nodup⟩

/-- The policy with an offered key at the front of the window, which may be too large now. -/
def pushed (p : Admission) (key : String) (cost : Nat) : Admission :=
  { p.counted key 1 with window := (p.window.pushFront key () cost).2 }

theorem all_pushed (cost : Nat) (hb : key ∉ s.probation.map Entry.key)
    (ht : key ∉ s.protection.map Entry.key) :
    (Segments.mk (⟨key, (), cost⟩ :: without s.window key) s.probation s.protection).all =
      ⟨key, (), cost⟩ :: without s.all key := by
  rw [Segments.all, Segments.all, RecencyList.without_append, RecencyList.without_append,
    RecencyList.without_of_not_mem hb, RecencyList.without_of_not_mem ht]
  rfl

theorem Holds.pushed (h : p.Holds s) (cost : Nat) (hb : key ∉ s.probation.map Entry.key)
    (ht : key ∉ s.protection.map Entry.key) :
    (p.pushed key cost).Holds
      ⟨⟨key, (), cost⟩ :: without s.window key, s.probation, s.protection⟩ := by
  refine ⟨h.window.pushFront key () cost, h.probation, h.protection, ?_⟩
  rw [all_pushed cost hb ht]
  exact nodup_cons_without h.nodup key () cost

/-- A key on probation that is offered gets protection. -/
theorem Holds.offer_eq_protect {e : Entry Unit} {rest : RecencyList Unit} {cost : Nat}
    (h : p.Holds s) (ht : key ∉ s.protection.map Entry.key)
    (hr : p.probation.remove key = some (e, rest)) :
    p.offer key cost =
      ([], Admission.protect { p.counted key 1 with probation := rest } key cost) := by
  unfold Admission.offer
  dsimp only
  rw [if_neg (mt h.protection.contains_iff.1 ht), hr]
  rfl

/-- A key outside the main segment is offered to the window. -/
theorem Holds.offer_eq_drainWindow (h : p.Holds s) (cost : Nat)
    (hb : key ∉ s.probation.map Entry.key) (ht : key ∉ s.protection.map Entry.key) :
    p.offer key cost = (p.pushed key cost).drainWindow := by
  unfold Admission.offer
  dsimp only
  rw [if_neg (mt h.protection.contains_iff.1 ht), h.probation.remove_eq_none_iff.2 hb]
  rfl

theorem Holds.recordReads (h : p.Holds s) (key : String) (count : Nat) :
    ∃ s', (p.recordReads key count).Holds s' ∧ p.Read key s s' := by
  unfold Admission.recordReads
  dsimp only
  split_ifs with hw ht
  · obtain ⟨e, he, rfl⟩ := List.mem_map.1 (h.window.contains_iff.1 hw)
    have hall : (Segments.mk (e :: without s.window e.key) s.probation s.protection).all.Perm
        s.all := ((perm_cons_without h.window.nodup he).append_right _).append_right _
    exact ⟨⟨e :: without s.window e.key, s.probation, s.protection⟩,
      ⟨h.window.touch he, h.probation, h.protection, nodup_of_perm hall h.nodup⟩,
      .inWindow he rfl⟩
  · obtain ⟨e, he, rfl⟩ := List.mem_map.1 (h.protection.contains_iff.1 ht)
    have hall : (Segments.mk s.window s.probation (e :: without s.protection e.key)).all.Perm
        s.all := (perm_cons_without h.protection.nodup he).append_left _
    exact ⟨⟨s.window, s.probation, e :: without s.protection e.key⟩,
      ⟨h.window, h.probation, h.protection.touch he, nodup_of_perm hall h.nodup⟩,
      .isProtected he rfl⟩
  · split
    · rename_i e rest hr
      obtain ⟨he, rfl, kept, demoted, hsplit, hs'⟩ :=
        (h.counted key (min count maxReads)).protect_probation hr e.cost
      exact ⟨_, hs', .promoted he rfl hsplit⟩
    · rename_i hr
      refine ⟨s, h.counted key (min count maxReads), .untracked fun hk => ?_⟩
      rw [Segments.all, List.map_append, List.map_append, List.mem_append, List.mem_append] at hk
      rcases hk with (hk | hk) | hk
      · exact hw (h.window.contains_iff.2 hk)
      · exact h.probation.remove_eq_none_iff.1 hr hk
      · exact ht (h.protection.contains_iff.2 hk)

theorem Holds.offer (h : p.Holds s) (key : String) (cost : Nat) :
    ∃ s' dropped, (p.offer key cost).2.Holds s' ∧
      (p.offer key cost).1 = dropped.map Entry.key ∧ p.Offered key cost s dropped s' := by
  have hc := h.counted key 1
  by_cases ht : key ∈ s.protection.map Entry.key
  · have hoffer : p.offer key cost = ([], (p.counted key 1).protect key cost) :=
      if_pos (h.protection.contains_iff.2 ht)
    obtain ⟨kept, demoted, hsplit, hs'⟩ := hc.protect cost (h.not_mem_of_protection ht)
    rw [hoffer]
    exact ⟨_, [], hs', rfl, .isProtected ht hsplit⟩
  · cases hr : p.probation.remove key with
    | some found =>
      obtain ⟨e, rest⟩ := found
      obtain ⟨he, rfl, kept, demoted, hsplit, hs'⟩ := hc.protect_probation hr cost
      rw [h.offer_eq_protect ht hr]
      exact ⟨_, [], hs', rfl, .promoted (List.mem_map_of_mem he) hsplit⟩
    | none =>
      have hb := h.probation.remove_eq_none_iff.1 hr
      obtain ⟨front, accepted, dropped, hperm, hd, hs'⟩ := (h.pushed cost hb ht).drainWindow
      rw [h.offer_eq_drainWindow cost hb ht]
      exact ⟨_, dropped, hs', hd, .windowed hb ht hperm⟩

/-! ## What is tracked -/

/-- What goes from a list to the front of another one. -/
theorem count_of_split {x a : Entry Unit} {es kept demoted : List (Entry Unit)}
    (h : x :: es = kept ++ demoted) :
    kept.count a + demoted.count a = es.count a + if x == a then 1 else 0 := by
  rw [← List.count_append, ← h, List.count_cons]

theorem Read.all_perm {s' : Segments} (h : p.Read key s s') (hs : p.Holds s) :
    s'.all.Perm s.all := by
  cases h with
  | inWindow he hk =>
    subst hk
    exact ((perm_cons_without hs.window.nodup he).append_right _).append_right _
  | isProtected he hk =>
    subst hk
    exact (perm_cons_without hs.protection.nodup he).append_left _
  | promoted he hk hsplit =>
    subst hk
    have hb := perm_cons_without hs.probation.nodup he
    rw [List.perm_iff_count] at hb ⊢
    intro a
    have hcount := count_of_split (a := a) hsplit
    have hba := hb a
    simp only [Segments.all, List.count_append, List.count_cons] at hba ⊢
    omega
  | untracked _ => exact .refl _

theorem Offered.all_perm {cost : Nat} {s' : Segments} {dropped : List (Entry Unit)}
    (h : p.Offered key cost s dropped s') (hs : p.Holds s) :
    (s'.all ++ dropped).Perm (⟨key, (), cost⟩ :: without s.all key) := by
  rw [Segments.all, Segments.all, RecencyList.without_append, RecencyList.without_append,
    List.perm_iff_count]
  intro a
  cases h with
  | isProtected hk hsplit =>
    have hkey := hs.not_mem_of_protection hk
    rw [List.map_append, List.mem_append, not_or] at hkey
    rw [RecencyList.without_of_not_mem hkey.1, RecencyList.without_of_not_mem hkey.2]
    have hcount := count_of_split (a := a) hsplit
    simp only [List.count_append, List.count_cons, List.count_nil]
    omega
  | promoted hk hsplit =>
    rw [RecencyList.without_of_not_mem (hs.not_mem_of_probation hk),
      RecencyList.without_of_not_mem (hs.not_mem_protection (.inr hk))]
    have hcount := count_of_split (a := a) hsplit
    simp only [List.count_append, List.count_cons, List.count_nil]
    omega
  | windowed hb ht hperm =>
    rw [RecencyList.without_of_not_mem hb, RecencyList.without_of_not_mem ht]
    have hcount := hperm.count_eq a
    simp only [List.count_append, List.count_cons] at hcount ⊢
    omega

theorem Tracks.noteSum (h : p.Tracks es) (overflows : Bool) : (p.noteSum overflows).Tracks es := by
  obtain ⟨s, hs, hes⟩ := h
  exact ⟨s, hs.noteSum overflows, hes⟩

/-- Reads change at most the order of what is tracked. -/
theorem Tracks.recordReads (h : p.Tracks es) (key : String) (count : Nat) :
    (p.recordReads key count).Tracks es := by
  obtain ⟨s, hs, hes⟩ := h
  obtain ⟨s', hs', hread⟩ := hs.recordReads key count
  exact ⟨s', hs', (hread.all_perm hs).trans hes⟩

/-- An offered key is tracked with its cost, and so is all else but what is told to give way. -/
theorem Tracks.offer (h : p.Tracks es) (key : String) (cost : Nat) :
    ∃ kept dropped, (p.offer key cost).2.Tracks kept ∧
      (p.offer key cost).1 = dropped.map Entry.key ∧
      (kept ++ dropped).Perm (⟨key, (), cost⟩ :: without es key) := by
  obtain ⟨s, hs, hes⟩ := h
  obtain ⟨s', dropped, hs', hd, hoffer⟩ := hs.offer key cost
  exact ⟨s'.all, dropped, ⟨s', hs', .refl _⟩, hd,
    (hoffer.all_perm hs).trans ((hes.filter _).cons _)⟩

theorem Holds.remove (h : p.Holds s) (key : String) :
    (p.remove key).2.Holds
      ⟨without s.window key, without s.probation key, without s.protection key⟩ := by
  have hn : ((without s.all key).map Entry.key).Nodup :=
    h.nodup.sublist (List.filter_sublist.map _)
  rw [Segments.all, RecencyList.without_append, RecencyList.without_append] at hn
  unfold Admission.remove
  split
  · rename_i e rest hw
    obtain ⟨he, hk, hrest⟩ := h.window.of_remove hw
    have hkw : key ∈ s.window.map Entry.key := hk ▸ List.mem_map_of_mem he
    have hb : key ∉ s.probation.map Entry.key := fun hb => h.not_mem_of_probation hb hkw
    have ht := h.not_mem_protection (.inl hkw)
    exact ⟨hrest, h.probation.of_not_mem hb, h.protection.of_not_mem ht, hn⟩
  · rename_i hw
    have hw' := h.window.of_not_mem (h.window.remove_eq_none_iff.1 hw)
    split
    · rename_i e rest hb
      obtain ⟨he, hk, hrest⟩ := h.probation.of_remove hb
      have hkb : key ∈ s.probation.map Entry.key := hk ▸ List.mem_map_of_mem he
      have ht := h.not_mem_protection (.inr hkb)
      exact ⟨hw', hrest, h.protection.of_not_mem ht, hn⟩
    · rename_i hb
      have hb' := h.probation.of_not_mem (h.probation.remove_eq_none_iff.1 hb)
      split
      · rename_i e rest ht
        exact ⟨hw', hb', (h.protection.of_remove ht).2.2, hn⟩
      · rename_i ht
        have ht' := h.protection.of_not_mem (h.protection.remove_eq_none_iff.1 ht)
        exact ⟨hw', hb', ht', hn⟩

theorem Tracks.remove (h : p.Tracks es) (key : String) :
    (p.remove key).2.Tracks (without es key) := by
  obtain ⟨s, hs, hes⟩ := h
  refine ⟨_, hs.remove key, ?_⟩
  have hperm : (without s.all key).Perm (without es key) := hes.filter _
  rwa [Segments.all, RecencyList.without_append, RecencyList.without_append] at hperm

/-! ## Eviction -/

theorem freedBy_eq {freed : Nat} {victims : List (Entry Unit)}
    (h : freed + costSum victims < UInt64.size) :
    freedBy freed victims = freed + costSum victims := by
  induction victims generalizing freed with
  | nil => rfl
  | cons e victims ih =>
    rw [RecencyList.costSum_cons] at h ⊢
    have hadd : Word.add freed e.cost = freed + e.cost := Word.add_eq (by omega)
    rw [freedBy, List.foldl_cons, hadd, ← freedBy, ih (by omega), Nat.add_assoc]

theorem freeingOverflows_eq_false {freed : Nat} {victims : List (Entry Unit)}
    (h : freed + costSum victims < UInt64.size) : freeingOverflows freed victims = false := by
  induction victims generalizing freed with
  | nil => rfl
  | cons e victims ih =>
    rw [RecencyList.costSum_cons] at h
    have hadd : Word.add freed e.cost = freed + e.cost := Word.add_eq (by omega)
    rw [freeingOverflows, hadd, ih (by omega), Bool.or_false, Word.overflows_eq_false_iff]
    omega

/-- The entries that are freed are taken off the old end.  When the sums fit they are cut off by
cost. -/
theorem holds_free {l : RecencyList Unit} {es : List (Entry Unit)} (h : l.Holds es)
    (need freed : Nat) :
    ∃ kept, (free l need freed).2.Holds kept ∧ es = kept ++ (free l need freed).1.reverse ∧
      (freed + costSum es < UInt64.size →
        Cuts (need - freed) es.reverse (free l need freed).1 kept.reverse) := by
  fun_induction free l need freed generalizing es with
  | case1 l freed _ hp =>
    obtain rfl := h.popBack_eq_none_iff.1 hp
    exact ⟨[], h, rfl, fun _ => RecencyList.cuts_nil _⟩
  | case2 l freed hneed e rest hp victims left heq ih =>
    obtain ⟨front, rfl, hrest⟩ := h.of_popBack hp
    obtain ⟨kept, hkept, hsplit, hcuts⟩ := ih hrest
    rw [heq] at hkept hsplit hcuts
    refine ⟨kept, hkept, by rw [hsplit]; simp, fun hfit => ?_⟩
    rw [RecencyList.costSum_append, RecencyList.costSum_cons, RecencyList.costSum_nil] at hfit
    have hadd : Word.add freed e.cost = freed + e.cost := Word.add_eq (by omega)
    rw [hadd, ← Nat.sub_sub] at hcuts
    rw [List.reverse_concat]
    exact (hcuts (by omega)).cons (by omega)
  | case3 l freed hneed =>
    refine ⟨es, h, by simp, fun _ => ?_⟩
    rw [Nat.sub_eq_zero_of_le (Nat.le_of_not_lt hneed)]
    exact RecencyList.cuts_zero _

theorem free_of_le {l : RecencyList Unit} {need freed : Nat} (h : need ≤ freed) :
    free l need freed = ([], l) := by
  unfold free
  rw [if_neg (Nat.not_lt.2 h)]

theorem evict_zero (p : Admission) : p.evict 0 = ([], p) := by
  simp only [Admission.evict, free_of_le (Nat.zero_le _), List.append_nil, freeingOverflows,
    noteSum_false]

/-- Probation gives enough when no more is needed than it costs, and then nothing else is asked. -/
theorem Holds.evict_of_le (h : p.Holds s) (hp : p.probation.overflowed = false) {need : Nat}
    (hn : need ≤ p.probation.totalCost) :
    p.evict need =
      ((free p.probation need 0).1, { p with probation := (free p.probation need 0).2 }) := by
  obtain ⟨kept, hkept, hes, hcuts⟩ := holds_free h.probation need 0
  have hlt := h.probation.costSum_lt hp
  have hfit : 0 + costSum (free p.probation need 0).1 < UInt64.size := by
    rw [hes, RecencyList.costSum_append, RecencyList.costSum_reverse] at hlt
    omega
  have hfreed : need ≤ freedBy 0 (free p.probation need 0).1 := by
    rw [freedBy_eq hfit, Nat.zero_add]
    rcases (hcuts (by rwa [Nat.zero_add])).enough with hle | hnil
    · exact hle
    · rw [List.reverse_eq_nil_iff.1 hnil, List.nil_append] at hes
      rwa [h.probation.totalCost hp, hes, RecencyList.costSum_reverse] at hn
  have hnone : freedBy (freedBy 0 (free p.probation need 0).1) [] =
      freedBy 0 (free p.probation need 0).1 := rfl
  unfold Admission.evict
  simp only [free_of_le hfreed, hnone, List.append_nil, freeingOverflows_eq_false hfit,
    noteSum_false]

theorem perm_order (s : Segments) : s.order.Perm s.all := by
  rw [Segments.order, Segments.all, List.perm_iff_count]
  intro a
  simp only [List.count_append, List.count_reverse]
  omega

theorem costSum_all (s : Segments) :
    costSum s.all = costSum s.window + costSum s.probation + costSum s.protection := by
  rw [Segments.all, RecencyList.costSum_append, RecencyList.costSum_append]

/-- What is evicted is taken off the old end of the segments, and all else stays.  When the sums fit
it is cut off by cost, one segment after the other. -/
theorem Holds.evict (h : p.Holds s) (need : Nat) :
    ∃ kept gone : Segments, s = kept ++ gone ∧ (p.evict need).1 = gone.order ∧
      (p.evict need).2.Holds kept ∧
      (costSum s.all < UInt64.size → Cuts need s.order gone.order kept.order) := by
  unfold Admission.evict
  simp only
  obtain ⟨b, hb, hsplitb, hcutb⟩ := holds_free h.probation need 0
  set fromProbation := (free p.probation need 0).1
  obtain ⟨t, ht, hsplitt, hcutt⟩ := holds_free h.protection need (freedBy 0 fromProbation)
  set fromProtection := (free p.protection need (freedBy 0 fromProbation)).1
  obtain ⟨w, hw, hsplitw, hcutw⟩ := holds_free h.window need
    (freedBy (freedBy 0 fromProbation) fromProtection)
  set fromWindow := (free p.window need (freedBy (freedBy 0 fromProbation) fromProtection)).1
  let kept : Segments := ⟨w, b, t⟩
  let gone : Segments := ⟨fromWindow.reverse, fromProbation.reverse, fromProtection.reverse⟩
  have hsplit : s = kept ++ gone := by
    change s = ⟨w ++ fromWindow.reverse, b ++ fromProbation.reverse, t ++ fromProtection.reverse⟩
    rw [← hsplitw, ← hsplitb, ← hsplitt]
  have hgone : fromProbation ++ fromProtection ++ fromWindow = gone.order := by
    simp only [gone, Segments.order, List.reverse_reverse]
  have hnodup : (kept.all.map Entry.key).Nodup := by
    have hsub : kept.all.Sublist s.all := by
      rw [hsplit]
      exact ((List.sublist_append_left _ _).append (List.sublist_append_left _ _)).append
        (List.sublist_append_left _ _)
    exact h.nodup.sublist (hsub.map _)
  refine ⟨kept, gone, hsplit, hgone, Holds.noteSum ⟨hw, hb, ht, hnodup⟩ _, fun hfit => ?_⟩
  rw [costSum_all] at hfit
  have hfromb : costSum fromProbation ≤ costSum s.probation := by
    rw [hsplitb, RecencyList.costSum_append, RecencyList.costSum_reverse]
    exact Nat.le_add_left _ _
  have hfromt : costSum fromProtection ≤ costSum s.protection := by
    rw [hsplitt, RecencyList.costSum_append, RecencyList.costSum_reverse]
    exact Nat.le_add_left _ _
  have hfreedb : freedBy 0 fromProbation = costSum fromProbation := by
    rw [freedBy_eq (by omega), Nat.zero_add]
  rw [hfreedb] at hcutt hcutw
  rw [freedBy_eq (by omega)] at hcutw
  rw [← hgone]
  refine ((hcutb (by omega)).append (hcutt (by omega))).append ?_
  rw [RecencyList.costSum_append]
  exact hcutw (by omega)

/-- What is evicted was tracked before, all else stays, and nothing stays if that does not free
enough. -/
theorem Tracks.evict (h : p.Tracks es) (need : Nat) :
    ∃ kept, (p.evict need).2.Tracks kept ∧ (kept ++ (p.evict need).1).Perm es ∧
      (costSum es < UInt64.size → need ≤ costSum (p.evict need).1 ∨ kept = []) := by
  obtain ⟨s, hs, hes⟩ := h
  obtain ⟨kept, gone, rfl, hgone, hkept, hcuts⟩ := hs.evict need
  rw [hgone]
  refine ⟨kept.order, ⟨kept, hkept, (perm_order kept).symm⟩, ?_, fun hfit => ?_⟩
  · refine List.Perm.trans ?_ hes
    have hall : (kept ++ gone).all = (kept.window ++ gone.window) ++
        (kept.probation ++ gone.probation) ++ (kept.protection ++ gone.protection) := rfl
    rw [hall, Segments.order, Segments.order, List.perm_iff_count]
    intro a
    simp only [List.count_append, List.count_reverse]
    omega
  · rw [← RecencyList.costSum_perm hes] at hfit
    exact (hcuts hfit).enough

theorem Tracks.contains_iff (h : p.Tracks es) :
    p.contains key = true ↔ key ∈ es.map Entry.key := by
  obtain ⟨s, hs, hes⟩ := h
  rw [← (hes.map Entry.key).mem_iff, Segments.all, Admission.contains, Bool.or_eq_true,
    Bool.or_eq_true, hs.window.contains_iff, hs.probation.contains_iff,
    hs.protection.contains_iff, List.map_append, List.map_append, List.mem_append, List.mem_append]

/-- The cost with which a key is tracked. -/
def cost? (p : Admission) (key : String) : Option Nat :=
  (p.window.cost? key).or ((p.probation.cost? key).or (p.protection.cost? key))

theorem Tracks.cost?_eq_some_iff (h : p.Tracks es) {cost : Nat} :
    p.cost? key = some cost ↔ ⟨key, (), cost⟩ ∈ es := by
  obtain ⟨s, hs, hes⟩ := h
  have hmem (ds : List (Entry Unit)) :
      (∃ e ∈ ds, e.key = key ∧ e.cost = cost) ↔ ⟨key, (), cost⟩ ∈ ds := by
    constructor
    · rintro ⟨e, he, rfl, rfl⟩
      exact he
    · intro he
      exact ⟨_, he, rfl, rfl⟩
  have hnone {ds : List (Entry Unit)} (he : (⟨key, (), cost⟩ : Entry Unit) ∈ ds) :
      key ∈ ds.map Entry.key := List.mem_map.2 ⟨_, he, rfl⟩
  rw [← hes.mem_iff, Segments.all, List.mem_append, List.mem_append, cost?, Option.or_eq_some_iff,
    Option.or_eq_some_iff, hs.window.cost?_eq_some_iff, hs.probation.cost?_eq_some_iff,
    hs.protection.cost?_eq_some_iff, hs.window.cost?_eq_none_iff, hs.probation.cost?_eq_none_iff,
    hmem, hmem, hmem, or_assoc]
  constructor
  · tauto
  · rintro (he | he | he)
    · exact .inl he
    · exact .inr ⟨hs.not_mem_of_probation (hnone he), .inl he⟩
    · have hk := hs.not_mem_of_protection (hnone he)
      rw [List.map_append, List.mem_append, not_or] at hk
      exact .inr ⟨hk.1, .inr ⟨hk.2, he⟩⟩

theorem tracks_clear (p : Admission) : p.clear.Tracks [] :=
  ⟨⟨[], [], []⟩, ⟨p.window.holds_clear, p.probation.holds_clear, p.protection.holds_clear,
    List.nodup_nil⟩, .refl _⟩

theorem tracks_new (hash : Fin 4 → String → UInt64) (maxCost numCounters : UInt64) :
    (new hash maxCost numCounters).Tracks [] :=
  ⟨⟨[], [], []⟩, ⟨RecencyList.holds_empty, RecencyList.holds_empty, RecencyList.holds_empty,
    List.nodup_nil⟩, .refl _⟩

end Admission

end PodCache
