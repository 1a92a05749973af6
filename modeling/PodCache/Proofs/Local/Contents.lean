import Mathlib.Tactic
import PodCache.Local.Cache
import PodCache.Proofs.Local.RecencyList

/-!
# What a local cache holds

The `contents` of a local cache are the values that it holds, by key.  They are what the rest of the
library knows of a cache: a lookup gives the value held and changes no contents (`get_fst`,
`contents_get`), an entry that is taken replaces the value of its key (`contents_set`), an entry
that is refused changes nothing (`set_of_not_takes`), and otherwise a cache only ever forgets
(`Contents.Sub`).  Which entries it takes (`takes`) depends on their cost alone and does not change
until the cache is closed.
-/

namespace PodCache

/-- Values by key. -/
abbrev Contents (V : Type) := String → Option V

namespace Contents

variable {V : Type}

/-- No values. -/
def empty : Contents V := fun _ => none

/-- The contents with the value of one key replaced. -/
def put (m : Contents V) (key : String) (value : V) : Contents V :=
  fun k => if key = k then some value else m k

/-- The contents without one key. -/
def erase (m : Contents V) (key : String) : Contents V :=
  fun k => if key = k then none else m k

/-- Everything in the first contents is also in the second. -/
def Sub (m m' : Contents V) : Prop := ∀ key value, m key = some value → m' key = some value

@[simp] theorem empty_apply (k : String) : (empty : Contents V) k = none := rfl

theorem put_apply (m : Contents V) (key k : String) (value : V) :
    m.put key value k = if key = k then some value else m k := rfl

theorem erase_apply (m : Contents V) (key k : String) :
    m.erase key k = if key = k then none else m k := rfl

@[simp] theorem put_self (m : Contents V) (key : String) (value : V) :
    m.put key value key = some value := if_pos rfl

theorem put_of_ne (m : Contents V) {key k : String} (value : V) (h : key ≠ k) :
    m.put key value k = m k := if_neg h

@[simp] theorem erase_self (m : Contents V) (key : String) : m.erase key key = none := if_pos rfl

theorem erase_of_ne (m : Contents V) {key k : String} (h : key ≠ k) : m.erase key k = m k :=
  if_neg h

theorem Sub.refl (m : Contents V) : m.Sub m := fun _ _ h => h

theorem Sub.of_eq {m m' : Contents V} (h : m = m') : m.Sub m' := h ▸ Sub.refl m

theorem Sub.trans {m₁ m₂ m₃ : Contents V} (h : m₁.Sub m₂) (h' : m₂.Sub m₃) : m₁.Sub m₃ :=
  fun _ _ hv => h' _ _ (h _ _ hv)

theorem empty_sub (m : Contents V) : empty.Sub m := fun _ _ h => by cases h

theorem erase_sub (m : Contents V) (key : String) : (m.erase key).Sub m := by
  intro k v h
  rw [erase_apply] at h
  split_ifs at h
  exact h

theorem Sub.put {m m' : Contents V} (h : m.Sub m') (key : String) (value : V) :
    (m.put key value).Sub (m'.put key value) := by
  intro k v hv
  rw [put_apply] at hv ⊢
  split_ifs at hv ⊢
  · exact hv
  · exact h k v hv

theorem Sub.erase {m m' : Contents V} (h : m.Sub m') (key : String) :
    (m.erase key).Sub (m'.erase key) := by
  intro k v hv
  rw [erase_apply] at hv ⊢
  split_ifs at hv ⊢
  exact h k v hv

theorem erase_sub_put (m : Contents V) (key : String) (value : V) :
    (m.erase key).Sub (m.put key value) := by
  intro k v hv
  rw [erase_apply] at hv
  rw [put_apply]
  split_ifs at hv ⊢
  exact hv

theorem erase_put_sub (m : Contents V) (key key' : String) (value : V) :
    ((m.put key value).erase key').Sub ((m.erase key').put key value) := by
  intro k v hv
  rw [erase_apply, put_apply] at hv
  rw [put_apply, erase_apply]
  split_ifs at hv ⊢
  · exact hv
  · exact hv

theorem erase_erase_comm (m : Contents V) (key key' : String) :
    (m.erase key).erase key' = (m.erase key').erase key := by
  funext k
  simp only [erase_apply]
  split_ifs <;> rfl

end Contents

/-! ## Recency lists -/

namespace RecencyList

variable {α : Type}

/-- The values of the entries by key. -/
def contents (l : RecencyList α) : Contents α := fun k => (l.find? k).map Entry.value

theorem Holds.contents_eq {l : RecencyList α} {es : List (Entry α)} (h : l.Holds es) (k : String) :
    l.contents k = (entryFor es k).map Entry.value := by
  rw [contents, h.find?_eq]

theorem contents_of_without {l l' : RecencyList α} {es : List (Entry α)} {key : String}
    (h : l.Holds es) (h' : l'.Holds (without es key)) : l'.contents = l.contents.erase key := by
  funext k
  rw [Contents.erase_apply, h'.contents_eq, h.contents_eq, entryFor_without]
  split_ifs <;> rfl

@[simp] theorem contents_empty : (empty : RecencyList α).contents = Contents.empty :=
  funext fun _ => holds_empty.contents_eq _

theorem contents_pushFront (l : RecencyList α) (key : String) (value : α) (cost : Nat) :
    (l.pushFront key value cost).2.contents = l.contents.put key value := by
  obtain ⟨es, hes⟩ := l.exists_holds
  funext k
  rw [Contents.put_apply, (hes.pushFront key value cost).contents_eq, hes.contents_eq,
    entryFor_cons, entryFor_without]
  split_ifs <;> rfl

theorem touch_fst (l : RecencyList α) (key : String) : (l.touch key).1 = l.contents key := by
  obtain ⟨es, hes⟩ := l.exists_holds
  rw [hes.touch_fst, hes.contents_eq]

theorem contents_touch (l : RecencyList α) (key : String) :
    (l.touch key).2.contents = l.contents := by
  obtain ⟨es, hes⟩ := l.exists_holds
  funext k
  rw [(hes.touch_snd key).contents_eq, hes.contents_eq]
  cases he : entryFor es key with
  | none => rw [without_of_not_mem (entryFor_eq_none_iff.1 he), Option.toList_none, List.nil_append]
  | some e =>
    obtain ⟨-, rfl⟩ := (entryFor_eq_some_iff hes.nodup).1 he
    rw [Option.toList_some, List.singleton_append, entryFor_cons, entryFor_without]
    split_ifs with hk
    · rw [← hk, he]
    · rfl

theorem contents_of_popBack {l l' : RecencyList α} {e : Entry α} (h : l.popBack = some (e, l')) :
    l'.contents = l.contents.erase e.key := by
  obtain ⟨es, hes⟩ := l.exists_holds
  obtain ⟨front, rfl, hfront⟩ := hes.of_popBack h
  have hwithout := without_split hes.nodup
  rw [List.append_nil] at hwithout
  rw [← hwithout] at hfront
  exact contents_of_without hes hfront

theorem contents_of_remove {l l' : RecencyList α} {key : String} {e : Entry α}
    (h : l.remove key = some (e, l')) : l'.contents = l.contents.erase key := by
  obtain ⟨es, hes⟩ := l.exists_holds
  exact contents_of_without hes (hes.of_remove h).2.2

theorem contents_of_remove_eq_none {l : RecencyList α} {key : String} (h : l.remove key = none) :
    l.contents.erase key = l.contents := by
  obtain ⟨es, hes⟩ := l.exists_holds
  exact (contents_of_without hes (hes.of_not_mem (hes.remove_eq_none_iff.1 h))).symm

end RecencyList

/-! ## Recency caches -/

namespace RecencyCache

variable {V : Type}

theorem get_fst (c : RecencyCache V) (key : String) : (c.get key).1 = c.list.contents key := by
  rw [← RecencyList.touch_fst]
  unfold get
  rcases c.list.touch key with ⟨_ | v, l⟩ <;> rfl

theorem contents_get (c : RecencyCache V) (key : String) :
    (c.get key).2.list.contents = c.list.contents := by
  rw [← RecencyList.contents_touch c.list key]
  unfold get
  rcases c.list.touch key with ⟨_ | v, l⟩ <;> rfl

theorem contents_evictOverflow_sub (c : RecencyCache V) :
    c.evictOverflow.list.contents.Sub c.list.contents := by
  fun_induction evictOverflow c with
  | case1 c _ _ => exact .refl _
  | case2 c _ e l hp ih =>
      refine ih.trans ?_
      rw [RecencyList.contents_of_popBack hp]
      exact Contents.erase_sub _ _
  | case3 c _ => exact .refl _

theorem contents_set_sub (c : RecencyCache V) (key : String) (value : V) :
    (c.set key value).list.contents.Sub (c.list.contents.put key value) := by
  rw [← RecencyList.contents_pushFront c.list key value 1]
  exact contents_evictOverflow_sub _

theorem contents_delete (c : RecencyCache V) (key : String) :
    (c.delete key).list.contents = c.list.contents.erase key := by
  unfold delete
  split
  · exact RecencyList.contents_of_remove ‹_›
  · exact (RecencyList.contents_of_remove_eq_none ‹_›).symm

end RecencyCache

/-! ## Random caches -/

namespace RandomCache

variable {V : Type}

/-- The values of the items by key. -/
def contents (c : RandomCache V) : Contents V := fun k => c.items[k]?

theorem contents_apply (c : RandomCache V) (k : String) : c.contents k = c.items[k]? := rfl

theorem get_fst (c : RandomCache V) (key : String) : (c.get key).1 = c.contents key := by
  unfold get contents
  cases c.items[key]? <;> rfl

theorem contents_get (c : RandomCache V) (key : String) :
    (c.get key).2.contents = c.contents := by
  unfold get contents
  cases c.items[key]? <;> rfl

theorem contents_eq_of_insert (c : RandomCache V) {c' : RandomCache V} (key : String) (value : V)
    (h : c'.items = c.items.insert key value) : c'.contents = c.contents.put key value := by
  funext k
  rw [Contents.put_apply, contents_apply, contents_apply, h, Std.TreeMap.getElem?_insert]
  simp only [Std.compare_eq_iff_eq]

theorem contents_eq_of_erase (c : RandomCache V) {c' : RandomCache V} (key : String)
    (h : c'.items = c.items.erase key) : c'.contents = c.contents.erase key := by
  funext k
  rw [Contents.erase_apply, contents_apply, contents_apply, h, Std.TreeMap.getElem?_erase]
  simp only [Std.compare_eq_iff_eq]

theorem contents_evictOne_sub (c : RandomCache V) : c.evictOne.contents.Sub c.contents := by
  unfold evictOne
  cases c.victim? with
  | none => exact .refl _
  | some victim =>
    rw [contents_eq_of_erase c victim rfl]
    exact Contents.erase_sub _ _

theorem contents_set_sub (c : RandomCache V) (key : String) (value : V) :
    (c.set key value).contents.Sub (c.contents.put key value) := by
  unfold set
  rw [contents_eq_of_insert _ key value rfl]
  refine Contents.Sub.put ?_ key value
  split_ifs
  · exact contents_evictOne_sub c
  · exact .refl _

theorem contents_delete (c : RandomCache V) (key : String) :
    (c.delete key).contents = c.contents.erase key := contents_eq_of_erase c key rfl

theorem contents_clear (c : RandomCache V) : c.clear.contents = Contents.empty := by
  funext k
  exact Std.TreeMap.getElem?_emptyc

end RandomCache

/-! ## Frequency caches -/

namespace FrequencyCache

variable {V : Type}

/-- The resident values by key. -/
def contents (c : FrequencyCache V) : Contents V := fun k => c.resident[k]?.map Slot.value

theorem contents_apply (c : FrequencyCache V) (k : String) :
    c.contents k = c.resident[k]?.map Slot.value := rfl

/-- The first cache comes from the second by dropping entries that its policy gives up. -/
structure Trims (c' c : FrequencyCache V) : Prop where
  frame : ∃ resident policy evictions, c' = { c with resident, policy, evictions }
  slots : ∀ (key : String) (slot : Slot V),
    c'.resident[key]? = some slot → c.resident[key]? = some slot

theorem Trims.refl (c : FrequencyCache V) : c.Trims c :=
  ⟨⟨c.resident, c.policy, c.evictions, rfl⟩, fun _ _ h => h⟩

theorem Trims.trans {c₁ c₂ c₃ : FrequencyCache V} (h : c₁.Trims c₂) (h' : c₂.Trims c₃) :
    c₁.Trims c₃ := by
  refine ⟨?_, fun key slot hs => h'.slots key slot (h.slots key slot hs)⟩
  obtain ⟨resident, policy, evictions, rfl⟩ := h.frame
  obtain ⟨_, _, _, rfl⟩ := h'.frame
  exact ⟨resident, policy, evictions, rfl⟩

theorem Trims.foldl {α : Type} {f : FrequencyCache V → α → FrequencyCache V}
    (hf : ∀ c a, (f c a).Trims c) (as : List α) (c : FrequencyCache V) :
    (as.foldl f c).Trims c := by
  induction as generalizing c with
  | nil => exact .refl c
  | cons a as ih => exact (ih (f c a)).trans (hf c a)

theorem evictKey_trims (c : FrequencyCache V) (key : String) : (c.evictKey key).Trims c := by
  unfold evictKey
  split_ifs
  · refine ⟨⟨_, c.policy, _, rfl⟩, fun k slot hs => ?_⟩
    rw [Std.TreeMap.getElem?_erase] at hs
    split_ifs at hs
    exact hs
  · exact .refl c

theorem applyWrite_trims (c : FrequencyCache V) (key : String) : (c.applyWrite key).Trims c := by
  unfold applyWrite
  cases c.resident[key]? with
  | none => exact .refl c
  | some slot =>
    exact (Trims.foldl evictKey_trims _ _).trans
      ⟨⟨c.resident, _, c.evictions, rfl⟩, fun _ _ h => h⟩

theorem enforceBound_trims (c : FrequencyCache V) : c.enforceBound.Trims c := by
  unfold enforceBound
  dsimp only
  split_ifs
  · exact (Trims.foldl (fun c (e : Entry Unit) => evictKey_trims c e.key) _ _).trans
      ⟨⟨c.resident, _, c.evictions, rfl⟩, fun _ _ h => h⟩
  · exact ⟨⟨c.resident, _, c.evictions, rfl⟩, fun _ _ h => h⟩

/-- A pass drops entries, empties the buffers and counts itself. -/
theorem maintain_trims (c : FrequencyCache V) :
    c.maintain.Trims
      { c with reads := c.reads.drain.2, writes := [], passes := c.passes + 1 } :=
  (enforceBound_trims _).trans ((Trims.foldl applyWrite_trims _ _).trans
    ⟨⟨c.resident, _, c.evictions, rfl⟩, fun _ _ h => h⟩)

/-- The first cache comes from the second by forgetting values, with the same bound and still as
open. -/
structure Forgets (c' c : FrequencyCache V) : Prop where
  sub : c'.contents.Sub c.contents
  maxCost_eq : c'.maxCost = c.maxCost
  closed_eq : c'.closed = c.closed

theorem Forgets.refl (c : FrequencyCache V) : c.Forgets c := ⟨.refl _, rfl, rfl⟩

theorem Trims.forgets {c' c : FrequencyCache V} (h : c'.Trims c) : c'.Forgets c := by
  have hsub : c'.contents.Sub c.contents := fun key value hv => by
    obtain ⟨slot, hs, rfl⟩ := Option.map_eq_some_iff.1 hv
    rw [contents_apply, h.slots key slot hs, Option.map_some]
  obtain ⟨resident, policy, evictions, rfl⟩ := h.frame
  exact ⟨hsub, rfl, rfl⟩

theorem contents_eq_of_erase (c : FrequencyCache V) {c' : FrequencyCache V} (key : String)
    (h : c'.resident = c.resident.erase key) : c'.contents = c.contents.erase key := by
  funext k
  rw [Contents.erase_apply, contents_apply, contents_apply, h, Std.TreeMap.getElem?_erase]
  simp only [Std.compare_eq_iff_eq]
  split_ifs <;> rfl

theorem contents_eq_of_insert (c : FrequencyCache V) {c' : FrequencyCache V} (key : String)
    (slot : Slot V) (h : c'.resident = c.resident.insert key slot) :
    c'.contents = c.contents.put key slot.value := by
  funext k
  rw [Contents.put_apply, contents_apply, contents_apply, h, Std.TreeMap.getElem?_insert]
  simp only [Std.compare_eq_iff_eq]
  split_ifs <;> rfl

theorem maintain_forgets (c : FrequencyCache V) : c.maintain.Forgets c := by
  obtain ⟨hsub, hmax, hclosed⟩ := (maintain_trims c).forgets
  exact ⟨hsub, hmax, hclosed⟩

theorem get_fst (c : FrequencyCache V) (key : String) : (c.get key).1 = c.contents key := by
  unfold get contents
  cases c.resident[key]? <;> rfl

theorem get_forgets (c : FrequencyCache V) (key : String) : (c.get key).2.Forgets c := by
  unfold get
  cases c.resident[key]? <;> exact ⟨.refl _, rfl, rfl⟩

theorem contents_get (c : FrequencyCache V) (key : String) :
    (c.get key).2.contents = c.contents := by
  unfold get contents
  cases c.resident[key]? <;> rfl

/-- An entry that is not refused comes in first; then some entries may go. -/
theorem set_forgets {c : FrequencyCache V} {cost : Nat} (h : ¬ (c.maxCost < cost ∨ c.closed))
    (key : String) (value : V) :
    (c.set key value cost).2.Forgets
      { c with
        resident := c.resident.insert key ⟨value, cost⟩
        writes := c.writes ++ [key] } := by
  unfold set
  rw [if_neg h]
  dsimp only
  split_ifs
  · exact maintain_forgets _
  · exact .refl _

theorem contents_delete (c : FrequencyCache V) (key : String) :
    (c.delete key).contents = c.contents.erase key := contents_eq_of_erase c key rfl

theorem contents_clear (c : FrequencyCache V) : c.clear.contents = Contents.empty := by
  funext k
  rw [contents_apply, clear, Std.TreeMap.getElem?_emptyc]
  rfl

end FrequencyCache

/-! ## Caches of any kind -/

namespace LocalCache

variable {V : Type}

/-- The values that a cache holds, by key. -/
def contents (c : LocalCache V) : Contents V :=
  match c with
  | .recency c => c.list.contents
  | .random c => c.contents
  | .frequency c => c.contents

/-- Whether a cache takes entries of a cost. -/
def takes (c : LocalCache V) (cost : Nat) : Prop :=
  match c with
  | .recency _ | .random _ => True
  | .frequency c => ¬ (c.maxCost < cost ∨ c.closed)

/-- What a new cache of a kind is. -/
inductive IsNew (chance : Chance) (config : LocalConfig) : Kind → LocalCache V → Prop
  | recency {c : RecencyCache V} (hc : RecencyCache.new config.maxSize = .ok c) :
    IsNew chance config .recency (.recency c)
  | random {c : RandomCache V} (hc : RandomCache.new chance.draw config.maxSize = .ok c) :
    IsNew chance config .random (.random c)
  | frequency {c : FrequencyCache V} (hc : FrequencyCache.new chance config = .ok c) :
    IsNew chance config .frequency (.frequency c)

theorem isNew_of_new {chance : Chance} {kind : Kind} {config : LocalConfig} {c : LocalCache V}
    (h : new chance kind config = .ok c) : c.IsNew chance config kind := by
  cases kind with
  | recency =>
    cases hc : RecencyCache.new (V := V) config.maxSize with
    | error e => simp [new, hc, Except.map, Except.mapError] at h
    | ok d =>
      simp only [new, hc, Except.map, Except.mapError, Except.ok.injEq] at h
      exact h ▸ .recency hc
  | random =>
    cases hc : RandomCache.new (V := V) chance.draw config.maxSize with
    | error e => simp [new, hc, Except.map, Except.mapError] at h
    | ok d =>
      simp only [new, hc, Except.map, Except.mapError, Except.ok.injEq] at h
      exact h ▸ .random hc
  | frequency =>
    cases hc : FrequencyCache.new (V := V) chance config with
    | error e => simp [new, hc, Except.map] at h
    | ok d =>
      simp only [new, hc, Except.map, Except.ok.injEq] at h
      exact h ▸ .frequency hc

theorem contents_of_new {chance : Chance} {kind : Kind} {config : LocalConfig} {c : LocalCache V}
    (h : new chance kind config = .ok c) : c.contents = Contents.empty := by
  funext k
  cases isNew_of_new h with
  | recency hc =>
    unfold RecencyCache.new at hc
    split_ifs at hc
    cases hc
    exact congrFun RecencyList.contents_empty k
  | random hc =>
    unfold RandomCache.new at hc
    split_ifs at hc
    cases hc
    exact Std.TreeMap.getElem?_emptyc
  | frequency hc =>
    obtain ⟨-, -, readCapacity, -, rfl⟩ := FrequencyCache.exists_eq_empty_of_new hc
    simp [contents, FrequencyCache.contents, FrequencyCache.empty]

/-- A new cache takes an entry unless it is a frequency cache whose bound the cost exceeds. -/
theorem takes_of_new {chance : Chance} {kind : Kind} {config : LocalConfig} {c : LocalCache V}
    (h : new chance kind config = .ok c) (cost : Nat) :
    c.takes cost ↔ ¬ (kind = .frequency ∧ config.maxCost.toNat < cost) := by
  cases isNew_of_new h with
  | recency hc | random hc => simp [takes]
  | frequency hc =>
    obtain ⟨-, -, readCapacity, -, rfl⟩ := FrequencyCache.exists_eq_empty_of_new hc
    simp [takes, FrequencyCache.empty]

/-- A cost of one is never too much. -/
theorem takes_one_of_new {chance : Chance} {kind : Kind} {config : LocalConfig} {c : LocalCache V}
    (h : new chance kind config = .ok c) : c.takes 1 := by
  rw [takes_of_new h]
  rintro ⟨rfl, hlt⟩
  cases isNew_of_new h with
  | frequency hc =>
    obtain ⟨-, hcost, -⟩ := FrequencyCache.exists_eq_empty_of_new hc
    have hpos : 0 < config.maxCost.toNat :=
      Nat.pos_of_ne_zero fun h0 => hcost (UInt64.toNat_inj.1 h0)
    omega

/-! ### Lookups -/

theorem get_fst (c : LocalCache V) (key : String) : (c.get key).1 = c.contents key := by
  cases c with
  | recency c => exact c.get_fst key
  | random c => exact c.get_fst key
  | frequency c => exact c.get_fst key

@[simp] theorem contents_get (c : LocalCache V) (key : String) :
    (c.get key).2.contents = c.contents := by
  cases c with
  | recency c => exact c.contents_get key
  | random c => exact c.contents_get key
  | frequency c => exact c.contents_get key

@[simp] theorem takes_get (c : LocalCache V) (key : String) (cost : Nat) :
    (c.get key).2.takes cost ↔ c.takes cost := by
  cases c with
  | recency c => exact Iff.rfl
  | random c => exact Iff.rfl
  | frequency c =>
    have h := c.get_forgets key
    simp [get, takes, h.maxCost_eq, h.closed_eq]

/-! ### Writes -/

theorem set_fst (c : LocalCache V) (key : String) (value : V) (cost : Nat) :
    (c.set key value cost).1 = true ↔ c.takes cost := by
  cases c with
  | recency c => simp [set, takes]
  | random c => simp [set, takes]
  | frequency c =>
    simp only [set, takes, FrequencyCache.set, Prod.map_fst, id]
    split_ifs with h <;> simp [h]

/-- A refused entry leaves the cache as it was. -/
theorem set_of_not_takes {c : LocalCache V} {cost : Nat} (h : ¬ c.takes cost) (key : String)
    (value : V) : c.set key value cost = (false, c) := by
  cases c with
  | recency c => exact absurd trivial h
  | random c => exact absurd trivial h
  | frequency c => simp only [set, FrequencyCache.set, if_pos (not_not.1 h), Prod.map, id]

/-- An entry that is taken replaces the value of its key, whatever else goes. -/
theorem contents_set {c : LocalCache V} {cost : Nat} (h : c.takes cost) (key : String)
    (value : V) : (c.set key value cost).2.contents.Sub (c.contents.put key value) := by
  cases c with
  | recency c => exact c.contents_set_sub key value
  | random c => exact c.contents_set_sub key value
  | frequency c =>
    refine (FrequencyCache.set_forgets h key value).sub.trans (.of_eq ?_)
    exact FrequencyCache.contents_eq_of_insert c key ⟨value, cost⟩ rfl

theorem takes_set (c : LocalCache V) (key : String) (value : V) (cost cost' : Nat) :
    (c.set key value cost).2.takes cost' ↔ c.takes cost' := by
  by_cases h : c.takes cost
  · cases c with
    | recency c => exact Iff.rfl
    | random c => exact Iff.rfl
    | frequency c =>
      have hf := FrequencyCache.set_forgets h key value
      simp [set, takes, hf.maxCost_eq, hf.closed_eq]
  · rw [set_of_not_takes h]

@[simp] theorem contents_delete (c : LocalCache V) (key : String) :
    (c.delete key).contents = c.contents.erase key := by
  cases c with
  | recency c => exact c.contents_delete key
  | random c => exact c.contents_delete key
  | frequency c => exact c.contents_delete key

@[simp] theorem takes_delete (c : LocalCache V) (key : String) (cost : Nat) :
    (c.delete key).takes cost ↔ c.takes cost := by cases c <;> rfl

@[simp] theorem contents_clear (c : LocalCache V) : c.clear.contents = Contents.empty := by
  cases c with
  | recency c => exact RecencyList.contents_empty
  | random c => exact c.contents_clear
  | frequency c => exact c.contents_clear

@[simp] theorem takes_clear (c : LocalCache V) (cost : Nat) :
    c.clear.takes cost ↔ c.takes cost := by
  cases c <;> rfl

@[simp] theorem contents_close (c : LocalCache V) : c.close.contents = Contents.empty := by
  cases c with
  | recency c => exact RecencyList.contents_empty
  | random c => exact c.contents_clear
  | frequency c => exact FrequencyCache.contents_clear _

/-! ### Maintenance -/

theorem contents_maintain_sub (c : LocalCache V) : c.maintain.contents.Sub c.contents := by
  cases c with
  | recency c => exact .refl _
  | random c => exact .refl _
  | frequency c => exact c.maintain_forgets.sub

@[simp] theorem takes_maintain (c : LocalCache V) (cost : Nat) :
    c.maintain.takes cost ↔ c.takes cost := by
  cases c with
  | recency c => exact Iff.rfl
  | random c => exact Iff.rfl
  | frequency c =>
    simp [maintain, takes, c.maintain_forgets.maxCost_eq, c.maintain_forgets.closed_eq]

end LocalCache

end PodCache
