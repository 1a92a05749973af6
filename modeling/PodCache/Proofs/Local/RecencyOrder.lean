import PodCache.Proofs.Local.RecencyList

/-!
# Recency chains as plain lists

To whoever only asks, a recency chain is a plain list of entries, the most recently used first, with
one entry for a key (`serveEntries`).  As long as the costs add up to a word, every run has a
result, so that no index is followed that is not live, and its answers are those of the plain list
(`answers_of_run`).  Behind the answers the four parts of a chain stay coupled (`Linked`): the links
run through the live indices once in each direction and end there, the lookup table tells the index
of each key and no others, and what an entry costs is part of the total, so that taking it off never
falls short.
-/

namespace PodCache.RecencyChain

open RecencyList (without entryFor costSum lastKey)

variable {α : Type} {c : RecencyChain α} {ps pre post : List (Place α)}

/-! ## Plain lists -/

/-- What a recency chain may be asked. -/
inductive Request (α : Type) where
  | pushFront (key : String) (value : α) (cost : Nat)
  | touch (key : String)
  | remove (key : String)
  | popBack
  | clear
  | contains (key : String)
  | peekBack
  | size
  | totalCost

/-- What a recency chain answers. -/
inductive Answer (α : Type) where
  | done
  | value (value : Option α)
  | entry (entry : Option (Entry α))
  | key (key : Option String)
  | truth (truth : Bool)
  | number (number : Nat)
  deriving DecidableEq

/-- A request to a plain list of entries, the most recently used first. -/
def serveEntries (es : List (Entry α)) : Request α → Answer α × List (Entry α)
  | .pushFront key value cost =>
    (.value ((entryFor es key).map Entry.value), ⟨key, value, cost⟩ :: without es key)
  | .touch key =>
    (.value ((entryFor es key).map Entry.value), (entryFor es key).toList ++ without es key)
  | .remove key => (.entry (entryFor es key), without es key)
  | .popBack => (.entry es.getLast?, es.dropLast)
  | .clear => (.done, [])
  | .contains key => (.truth (entryFor es key).isSome, es)
  | .peekBack => (.key (lastKey es), es)
  | .size => (.number es.length, es)
  | .totalCost => (.number (costSum es), es)

/-- The answers of a plain list to a sequence of requests. -/
def answersOf (es : List (Entry α)) : List (Request α) → List (Answer α)
  | [] => []
  | r :: rs => (serveEntries es r).1 :: answersOf (serveEntries es r).2 rs

/-- The plain list after a sequence of requests. -/
def entriesAfter (es : List (Entry α)) (rs : List (Request α)) : List (Entry α) :=
  rs.foldl (fun es r => (serveEntries es r).2) es

/-- A request to a recency chain. -/
def serve (c : RecencyChain α) : Request α → Option (Answer α × RecencyChain α)
  | .pushFront key value cost => do
    let (previous, c) ← c.pushFront key value cost
    return (.value previous, c)
  | .touch key => do
    let (value, c) ← c.touch key
    return (.value value, c)
  | .remove key => do
    let found ← c.remove key
    return (.entry (found.map Prod.fst), (found.map Prod.snd).getD c)
  | .popBack => do
    let found ← c.popBack
    return (.entry (found.map Prod.fst), (found.map Prod.snd).getD c)
  | .clear => some (.done, c.clear)
  | .contains key => some (.truth (c.contains key), c)
  | .peekBack => do
    let key ← c.peekBack
    return (.key key, c)
  | .size => some (.number c.size, c)
  | .totalCost => some (.number c.totalCost, c)

/-- The answers to a sequence of requests, and what is there afterwards. -/
def run (c : RecencyChain α) : List (Request α) → Option (List (Answer α) × RecencyChain α)
  | [] => some ([], c)
  | r :: rs => do
    let (answer, c) ← c.serve r
    let (answers, c) ← c.run rs
    return (answer :: answers, c)

/-! ## Following the links -/

/-- From a node on, the links to the older side give the nodes behind it and then end. -/
theorem Segment.walk_older {newer : Option Arena.Index} (h : Segment c.nodes newer ps none)
    {fuel : Nat} (hf : ps.length ≤ fuel) : c.walk Node.older fuel (firstOr ps none) = ps := by
  induction ps generalizing newer fuel with
  | nil => cases fuel <;> rfl
  | cons p ps ih =>
    cases fuel with
    | zero => simp at hf
    | succ fuel =>
      rw [firstOr_cons, walk, h.1]
      exact congrArg (p :: ·) (ih h.2 (Nat.le_of_succ_le_succ hf))

theorem Segment.walk_newer {older : Option Arena.Index} (h : Segment c.nodes none ps older)
    {fuel : Nat} (hf : ps.length ≤ fuel) :
    c.walk Node.newer fuel (lastOr ps none) = ps.reverse := by
  induction ps using List.reverseRecOn generalizing older fuel with
  | nil => cases fuel <;> rfl
  | append_singleton ps p ih =>
    cases fuel with
    | zero => simp at hf
    | succ fuel =>
      obtain ⟨hps, hp⟩ := (segment_concat ps p none older).1 h
      have hle : ps.length ≤ fuel := by simpa using hf
      rw [lastOr_append, lastOr_cons, lastOr_nil, walk, hp, List.reverse_append]
      exact congrArg (p :: ·) (ih hps hle)

theorem Holds.size_eq (h : c.Holds ps) : c.size = ps.length := by
  have hsize := RecencyList.Holds.size_eq (l := ⟨c, ps, h⟩) ⟨ps, h, rfl⟩
  rwa [List.length_map] at hsize

/-- Whether some link leads to an index. -/
def LinksTo (c : RecencyChain α) (i : Arena.Index) : Prop :=
  c.newest = some i ∨ c.oldest = some i ∨
    ∃ (j : Arena.Index) (node : Node α), c.nodes.get? j = some node ∧
      (node.newer = some i ∨ node.older = some i)

/-- What the nodes of a chain are is known from its entries. -/
theorem Holds.exists_split_of_get? (h : c.Holds ps) {i : Arena.Index} {node : Node α}
    (hn : c.nodes.get? i = some node) :
    ∃ pre post, ps = pre ++ (i, node.toEntry) :: post ∧
      node = ⟨node.toEntry, lastOr pre none, firstOr post none⟩ := by
  have hi : i ∈ ps.map Prod.fst := by
    by_contra hi
    rw [h.only i hi] at hn
    cases hn
  obtain ⟨⟨i, e⟩, hp, rfl⟩ := List.mem_map.1 hi
  obtain ⟨pre, post, rfl⟩ := List.append_of_mem hp
  obtain rfl := Option.some.inj (h.segment.get?.symm.trans hn)
  exact ⟨pre, post, rfl, rfl⟩

theorem Holds.get?_iff (h : c.Holds ps) {i : Arena.Index} {e : Entry α} :
    (c.nodes.get? i).map Node.toEntry = some e ↔ (i, e) ∈ ps := by
  rw [Option.map_eq_some_iff]
  constructor
  · rintro ⟨node, hn, rfl⟩
    obtain ⟨pre, post, rfl, -⟩ := h.exists_split_of_get? hn
    simp
  · intro hp
    obtain ⟨pre, post, rfl⟩ := List.append_of_mem hp
    exact ⟨_, h.segment.get?, rfl⟩

theorem Holds.isSome_get?_iff (h : c.Holds ps) {i : Arena.Index} :
    (c.nodes.get? i).isSome ↔ i ∈ ps.map Prod.fst := by
  constructor
  · intro hs
    by_contra hi
    rw [h.only i hi] at hs
    cases hs
  · intro hi
    obtain ⟨⟨i, e⟩, hp, rfl⟩ := List.mem_map.1 hi
    have hs := h.get?_iff.2 hp
    rw [← Option.isSome_map, hs]
    rfl

theorem Holds.isSome_get?_of_linksTo (h : c.Holds ps) {i : Arena.Index} (hi : c.LinksTo i) :
    (c.nodes.get? i).isSome := by
  rw [h.isSome_get?_iff]
  rcases hi with hnew | hold | ⟨j, node, hn, hlink⟩
  · exact mem_of_firstOr (h.newest.symm.trans hnew)
  · exact mem_of_lastOr (h.oldest.symm.trans hold)
  · obtain ⟨pre, post, rfl, hnode⟩ := h.exists_split_of_get? hn
    rw [hnode] at hlink
    rw [List.map_append, List.map_cons, List.mem_append, List.mem_cons]
    exact hlink.imp mem_of_lastOr fun holder => .inr (mem_of_firstOr holder)

/-- The four parts of a chain belong together: the entries are `ps`, each at its index, the most
recently used first. -/
structure Linked (c : RecencyChain α) (ps : List (Place α)) : Prop where
  /-- There is one index for an entry, and one entry for a key. -/
  nodup : (ps.map Prod.fst).Nodup
  nodupKeys : ((ps.map Prod.snd).map Entry.key).Nodup
  /-- The arena holds the entries at their indices, and nothing else. -/
  nodes : ∀ i e, (c.nodes.get? i).map Node.toEntry = some e ↔ (i, e) ∈ ps
  /-- The lookup table tells the index of each key, and knows no other keys. -/
  lookup : ∀ key i, c.lookup[key]? = some i ↔ ∃ e, (i, e) ∈ ps ∧ e.key = key
  /-- The links to the older side meet each index once, in their order, and end. -/
  older : ∀ fuel, c.size ≤ fuel → c.walk Node.older fuel c.newest = ps
  /-- So do the links to the newer side, in the opposite order. -/
  newer : ∀ fuel, c.size ≤ fuel → c.walk Node.newer fuel c.oldest = ps.reverse
  /-- No link leads to an index that is not live. -/
  live : ∀ i, c.LinksTo i → (c.nodes.get? i).isSome
  totalCost : c.totalCost = costSum (ps.map Prod.snd)
  /-- The cost of a node can be taken off the total. -/
  covered : ∀ i node, c.nodes.get? i = some node → node.cost ≤ c.totalCost

theorem Holds.linked (h : c.Holds ps) (hc : c.overflowed = false) : c.Linked ps where
  nodup := h.nodup
  nodupKeys := h.nodupKeys
  nodes _ _ := h.get?_iff
  lookup := h.lookup
  older fuel hf := by
    rw [h.newest]
    exact h.segment.walk_older (h.size_eq.symm.trans_le hf)
  newer fuel hf := by
    rw [h.oldest]
    exact h.segment.walk_newer (h.size_eq.symm.trans_le hf)
  live _ := h.isSome_get?_of_linksTo
  totalCost := h.totalCost hc
  covered i node hn := by
    obtain ⟨pre, post, rfl, -⟩ := h.exists_split_of_get? hn
    rw [h.totalCost hc, map_snd_split, RecencyList.costSum_split]
    exact Nat.le_add_right node.cost _

/-! ## Views -/

/-- The view of a chain is its entries. -/
theorem Holds.toList_eq (h : c.Holds ps) : c.toList = ps.map Prod.snd := by
  rw [toList, h.newest, h.segment.walk_older (h.size_eq.symm.trans_le (Nat.le_succ _))]

theorem Holds.toListOldestFirst_eq (h : c.Holds ps) :
    c.toListOldestFirst = (ps.map Prod.snd).reverse := by
  rw [toListOldestFirst, h.oldest,
    h.segment.walk_newer (h.size_eq.symm.trans_le (Nat.le_succ _)), List.map_reverse]

/-! ## Runs -/

/-- The lists of entries that a sequence of requests leads through. -/
def stages (es : List (Entry α)) : List (Request α) → List (List (Entry α))
  | [] => [es]
  | r :: rs => es :: stages (serveEntries es r).2 rs

theorem mem_stages_self (es : List (Entry α)) (rs : List (Request α)) : es ∈ stages es rs := by
  cases rs <;> simp [stages]

/-- A chain answers a request like its entries, and holds what they become. -/
theorem Holds.exists_serve (h : c.Holds ps) (hc : c.overflowed = false) (r : Request α)
    (hfit : costSum (serveEntries (ps.map Prod.snd) r).2 < UInt64.size) :
    ∃ c' qs, c.serve r = some ((serveEntries (ps.map Prod.snd) r).1, c') ∧ c'.Holds qs ∧
      qs.map Prod.snd = (serveEntries (ps.map Prod.snd) r).2 ∧ c'.overflowed = false := by
  cases r with
  | pushFront key value cost =>
    obtain ⟨c', qs, hm, hqs, hes, hflag⟩ := h.exists_pushFront key value cost
    refine ⟨c', qs, by rw [serve, hm]; rfl, hqs, hes, ?_⟩
    have hsum := RecencyList.costSum_eq_add_without h.nodupKeys key
    rw [serveEntries, RecencyList.costSum_cons] at hfit
    rw [hflag, hc, Bool.false_or, Word.overflows_eq_false_iff, h.totalCost hc, hsum,
      Nat.add_sub_cancel_left, Nat.add_comm]
    exact hfit
  | touch key =>
    obtain ⟨c', qs, hm, hqs, hes, -, hflag⟩ := h.exists_touch key
    exact ⟨c', qs, by rw [serve, hm]; rfl, hqs, hes, hflag.trans hc⟩
  | remove key =>
    cases hk : c.lookup[key]? with
    | none =>
      have hkey := h.lookup_eq_none_iff.1 hk
      refine ⟨c, ps, ?_, h, (RecencyList.without_of_not_mem hkey).symm, hc⟩
      rw [serve, serveEntries, h.remove_of_not_mem hkey, RecencyList.entryFor_eq_none_iff.2 hkey]
      rfl
    | some i =>
      obtain ⟨pre, e, post, rfl, rfl⟩ := h.split hk
      obtain ⟨c', hm, hrest, -, hflag⟩ := h.exists_remove
      refine ⟨c', pre ++ post, ?_, hrest, h.without_eq.symm, hflag.trans hc⟩
      rw [serve, serveEntries, hm, h.entryFor_eq]
      rfl
  | popBack =>
    rcases List.eq_nil_or_concat ps with rfl | ⟨front, ⟨i, e⟩, rfl⟩
    · exact ⟨c, [], by rw [serve, h.popBack_nil]; rfl, h, rfl, hc⟩
    · rw [List.concat_eq_append] at h ⊢
      obtain ⟨c', hm, hfront, -, hflag, -⟩ := h.exists_popBack
      refine ⟨c', front, ?_, hfront, by simp [serveEntries], hflag.trans hc⟩
      rw [serve, hm]
      simp [serveEntries]
  | clear => exact ⟨c.clear, [], rfl, holds_clear c, rfl, hc⟩
  | contains key =>
    have hcontains := RecencyList.Holds.contains_eq (l := ⟨c, ps, h⟩) ⟨ps, h, rfl⟩ key
    exact ⟨c, ps, congrArg (fun b => some (Answer.truth b, c)) hcontains, h, rfl, hc⟩
  | peekBack => exact ⟨c, ps, by rw [serve, h.peekBack_eq]; rfl, h, rfl, hc⟩
  | size =>
    refine ⟨c, ps, ?_, h, rfl, hc⟩
    rw [serve, serveEntries, h.size_eq, List.length_map]
  | totalCost => exact ⟨c, ps, by rw [serve, serveEntries, h.totalCost hc], h, rfl, hc⟩

theorem Holds.exists_run (h : c.Holds ps) (hc : c.overflowed = false) (rs : List (Request α))
    (hfit : ∀ es ∈ stages (ps.map Prod.snd) rs, costSum es < UInt64.size) :
    ∃ c' qs, c.run rs = some (answersOf (ps.map Prod.snd) rs, c') ∧ c'.Holds qs ∧
      qs.map Prod.snd = entriesAfter (ps.map Prod.snd) rs ∧ c'.overflowed = false := by
  induction rs generalizing c ps with
  | nil => exact ⟨c, ps, rfl, h, rfl, hc⟩
  | cons r rs ih =>
    rw [stages, List.forall_mem_cons] at hfit
    obtain ⟨c₁, ps₁, hm, hps₁, hes₁, hc₁⟩ := h.exists_serve hc r (hfit.2 _ (mem_stages_self _ rs))
    obtain ⟨c₂, ps₂, hm', hps₂, hes₂, hc₂⟩ := ih hps₁ hc₁ (hes₁ ▸ hfit.2)
    refine ⟨c₂, ps₂, ?_, hps₂, ?_, hc₂⟩
    · rw [run, hm]
      simp only [Option.bind_eq_bind, Option.bind_some, hm', hes₁, answersOf]
      rfl
    · rw [hes₂, hes₁]
      rfl

/-- Every run from the empty chain has a result as long as the costs of the entries add up to a
word.  It gives the answers of the plain list of entries, and the parts of the chain belong together
whenever it ends. -/
theorem answers_of_run (rs : List (Request α))
    (hfit : ∀ es ∈ stages [] rs, costSum es < UInt64.size) :
    ∃ c ps, (empty : RecencyChain α).run rs = some (answersOf [] rs, c) ∧ c.Linked ps ∧
      ps.map Prod.snd = entriesAfter [] rs := by
  obtain ⟨c, ps, hm, hps, hes, hc⟩ := holds_empty.exists_run rfl rs hfit
  exact ⟨c, ps, hm, hps.linked hc, hes⟩

/-- A chain in which the newest and the oldest entry were replaced and a slot was used again. -/
theorem answers_of_run_with_replaced_entries :
    ∃ (c : RecencyChain Nat) (ps : List (Place Nat)),
      empty.run [.pushFront "a" 1 2, .pushFront "b" 2 (UInt64.size - 3), .pushFront "a" 3 1,
          .popBack, .pushFront "c" 4 5, .pushFront "a" 5 0, .touch "c", .totalCost, .peekBack] =
        some ([.value none, .value none, .value (some 1), .entry (some ⟨"b", 2, UInt64.size - 3⟩),
          .value none, .value (some 3), .value (some 4), .number 5, .key (some "a")], c) ∧
      c.Linked ps ∧ ps.map Prod.snd = [⟨"c", 4, 5⟩, ⟨"a", 5, 0⟩] :=
  answers_of_run _ (by decide)

end PodCache.RecencyChain

namespace PodCache.RecencyList

variable {α : Type} {l : RecencyList α} {es : List (Entry α)}

/-- The view of a list is what it holds. -/
theorem Holds.toList_eq (h : l.Holds es) : l.toList = es := by
  obtain ⟨ps, hps, rfl⟩ := h
  exact hps.toList_eq

theorem Holds.toListOldestFirst_eq (h : l.Holds es) : l.toListOldestFirst = es.reverse := by
  obtain ⟨ps, hps, rfl⟩ := h
  exact hps.toListOldestFirst_eq

/-- The parts of the chain of a list belong together, and its entries are these. -/
def Linked (l : RecencyList α) (es : List (Entry α)) : Prop :=
  ∃ ps, l.chain.Linked ps ∧ ps.map Prod.snd = es

theorem Holds.linked (h : l.Holds es) (hl : l.overflowed = false) : l.Linked es := by
  obtain ⟨ps, hps, rfl⟩ := h
  exact ⟨ps, hps.linked hl, rfl⟩

end PodCache.RecencyList
