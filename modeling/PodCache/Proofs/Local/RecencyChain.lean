import PodCache.Proofs.Local.Entries

/-!
# The links of recency chains

A chain `c` holds the entries of `ps`, each at its index and the most recently used first, if its
links run through the indices in that order and there and back, no other index is live, and the
lookup table tells the index of each key (`Holds c ps`).  Then no operation meets an index that is
not live, and each does to the entries what its name says, whatever it does to the links.

The links are followed part by part: `Segment nodes newer ps older` says that nodes are linked to
each other in the order of `ps`, the first of them to `newer` and the last to `older`.
-/

namespace PodCache.RecencyChain

open RecencyList (without entryFor costSum)

variable {α : Type}

/-- An index with the entry there. -/
abbrev Place (α : Type) := Arena.Index × Entry α

/-- The first of some indices, or else another one. -/
def firstOr (ps : List (Place α)) (i : Option Arena.Index) : Option Arena.Index :=
  (ps.head?.map Prod.fst).or i

/-- The last of some indices, or else another one. -/
def lastOr (ps : List (Place α)) (i : Option Arena.Index) : Option Arena.Index :=
  (ps.getLast?.map Prod.fst).or i

/-- The nodes of `ps` are linked to each other in this order, between `newer` and `older`. -/
def Segment (nodes : Arena (Node α)) (newer : Option Arena.Index) :
    List (Place α) → Option Arena.Index → Prop
  | [], _ => True
  | (i, e) :: ps, older =>
    nodes.get? i = some ⟨e, newer, firstOr ps older⟩ ∧ Segment nodes (some i) ps older

/-- The links of a chain run through `ps`.  There may be other nodes. -/
structure Links (c : RecencyChain α) (ps : List (Place α)) : Prop where
  nodup : (ps.map Prod.fst).Nodup
  newest : c.newest = firstOr ps none
  oldest : c.oldest = lastOr ps none
  segment : Segment c.nodes none ps none

/-- A table tells the index of each key, and knows no other keys. -/
def Finds (lookup : Std.TreeMap String Arena.Index) (ps : List (Place α)) : Prop :=
  ∀ key i, lookup[key]? = some i ↔ ∃ e, (i, e) ∈ ps ∧ e.key = key

/-- What is kept of a sum of costs is the sum, or less if a sum was too great for a word. -/
structure Totals (total : Nat) (overflowed : Bool) (sum : Nat) : Prop where
  totalCost_lt : total < UInt64.size
  totalCost_le : total ≤ sum
  totalCost : overflowed = false → total = sum

/-- The entries of a chain with their indices, the most recently used first. -/
structure Holds (c : RecencyChain α) (ps : List (Place α)) : Prop extends Links c ps,
    Totals c.totalCost c.overflowed (costSum (ps.map Prod.snd)) where
  only : ∀ i, i ∉ ps.map Prod.fst → c.nodes.get? i = none
  nodupKeys : ((ps.map Prod.snd).map Entry.key).Nodup
  lookup : Finds c.lookup ps

variable {c c' : RecencyChain α} {nodes nodes' : Arena (Node α)} {ps qs pre post : List (Place α)}
  {newer older link : Option Arena.Index} {i j : Arena.Index} {e d : Entry α} {key : String}

/-! ## Ends -/

@[simp] theorem firstOr_nil (i : Option Arena.Index) : firstOr ([] : List (Place α)) i = i := rfl

@[simp] theorem firstOr_cons (p : Place α) (ps : List (Place α)) (i : Option Arena.Index) :
    firstOr (p :: ps) i = some p.1 := rfl

@[simp] theorem lastOr_nil (i : Option Arena.Index) : lastOr ([] : List (Place α)) i = i := rfl

theorem firstOr_append (ps qs : List (Place α)) (i : Option Arena.Index) :
    firstOr (ps ++ qs) i = firstOr ps (firstOr qs i) := by
  cases ps <;> rfl

@[simp] theorem lastOr_append (ps qs : List (Place α)) (i : Option Arena.Index) :
    lastOr (ps ++ qs) i = lastOr qs (lastOr ps i) := by
  rw [lastOr, List.getLast?_append, lastOr, lastOr]
  cases qs.getLast? <;> rfl

@[simp] theorem lastOr_cons (p : Place α) (ps : List (Place α)) (i : Option Arena.Index) :
    lastOr (p :: ps) i = lastOr ps (some p.1) := lastOr_append [p] ps i

theorem mem_of_firstOr (h : firstOr ps none = some i) : i ∈ ps.map Prod.fst := by
  cases ps with
  | nil => cases h
  | cons p ps =>
    obtain rfl := Option.some.inj h
    simp

theorem mem_of_lastOr (h : lastOr ps none = some i) : i ∈ ps.map Prod.fst := by
  rw [lastOr, Option.or_none, Option.map_eq_some_iff] at h
  obtain ⟨p, hp, rfl⟩ := h
  exact List.mem_map_of_mem (List.mem_of_getLast? hp)

/-! ## Segments -/

theorem segment_append (ps qs : List (Place α)) (newer older : Option Arena.Index) :
    Segment nodes newer (ps ++ qs) older ↔
      Segment nodes newer ps (firstOr qs older) ∧ Segment nodes (lastOr ps newer) qs older := by
  induction ps generalizing newer with
  | nil => simp [Segment]
  | cons p ps ih => simp [Segment, ih, firstOr_append, and_assoc]

theorem segment_concat (ps : List (Place α)) (p : Place α) (newer older : Option Arena.Index) :
    Segment nodes newer (ps ++ [p]) older ↔
      Segment nodes newer ps (some p.1) ∧ nodes.get? p.1 = some ⟨p.2, lastOr ps newer, older⟩ := by
  simp [segment_append, Segment]

/-- A segment is about its own nodes. -/
theorem Segment.congr (h : Segment nodes newer ps older)
    (hn : ∀ i ∈ ps.map Prod.fst, nodes'.get? i = nodes.get? i) : Segment nodes' newer ps older := by
  induction ps generalizing newer with
  | nil => trivial
  | cons p ps ih =>
    exact ⟨(hn p.1 (by simp)).trans h.1, ih h.2 fun i hi => hn i (List.mem_cons_of_mem p.1 hi)⟩

/-- The last node of a segment gets another neighbour. -/
theorem Segment.setLast {p : Place α} (h : Segment nodes newer (ps ++ [p]) older)
    (hp : p.1 ∉ ps.map Prod.fst)
    (hn : ∀ i, nodes'.get? i =
      if i = p.1 then some ⟨p.2, lastOr ps newer, link⟩ else nodes.get? i) :
    Segment nodes' newer (ps ++ [p]) link := by
  rw [segment_concat] at h ⊢
  refine ⟨h.1.congr fun i hi => ?_, by rw [hn, if_pos rfl]⟩
  have hne : i ≠ p.1 := fun hip => hp (hip ▸ hi)
  rw [hn, if_neg hne]

/-- The first node of a segment gets another neighbour. -/
theorem Segment.setFirst {p : Place α} (h : Segment nodes newer (p :: ps) older)
    (hp : p.1 ∉ ps.map Prod.fst)
    (hn : ∀ i, nodes'.get? i =
      if i = p.1 then some ⟨p.2, link, firstOr ps older⟩ else nodes.get? i) :
    Segment nodes' link (p :: ps) older := by
  refine ⟨by rw [hn, if_pos rfl], h.2.congr fun i hi => ?_⟩
  have hne : i ≠ p.1 := fun hip => hp (hip ▸ hi)
  rw [hn, if_neg hne]

theorem Segment.get? (h : Segment nodes newer (pre ++ (i, e) :: post) older) :
    nodes.get? i = some ⟨e, lastOr pre newer, firstOr post older⟩ :=
  ((segment_append pre ((i, e) :: post) newer older).1 h).2.1

/-- The content of a node is replaced. -/
theorem Segment.replace (h : Segment nodes newer (pre ++ (i, e) :: post) older)
    (hi : i ∉ (pre ++ post).map Prod.fst)
    (hn : ∀ j, nodes'.get? j =
      if j = i then some ⟨d, lastOr pre newer, firstOr post older⟩ else nodes.get? j) :
    Segment nodes' newer (pre ++ (i, d) :: post) older := by
  rw [segment_append] at h ⊢
  have hother (j : Arena.Index) (hj : j ∈ (pre ++ post).map Prod.fst) :
      nodes'.get? j = nodes.get? j := by
    have hne : j ≠ i := fun hji => hi (hji ▸ hj)
    rw [hn, if_neg hne]
  refine ⟨h.1.congr fun j hj => hother j ?_, by rw [hn, if_pos rfl],
    h.2.2.congr fun j hj => hother j ?_⟩
  · rw [List.map_append]
    exact List.mem_append_left _ hj
  · rw [List.map_append]
    exact List.mem_append_right _ hj

theorem notMem_of_split (h : ((pre ++ (i, e) :: post).map Prod.fst).Nodup) :
    i ∉ (pre ++ post).map Prod.fst := by
  rw [(List.perm_middle.map Prod.fst).nodup_iff, List.map_cons, List.nodup_cons] at h
  exact h.1

theorem nodup_of_split (h : ((pre ++ (i, e) :: post).map Prod.fst).Nodup) :
    ((pre ++ post).map Prod.fst).Nodup := by
  rw [(List.perm_middle.map Prod.fst).nodup_iff, List.map_cons, List.nodup_cons] at h
  exact h.2

/-! ## Changing links -/

theorem exists_modify {n : Node α} (h : c.nodes.get? i = some n) (f : Node α → Node α) :
    ∃ nodes, c.modify i f = some { c with nodes } ∧
      ∀ j, nodes.get? j = if j = i then some (f n) else c.nodes.get? j := by
  obtain ⟨nodes, hm, hn⟩ := Arena.exists_modify? h f
  exact ⟨nodes, by rw [modify, hm, Option.map_some], hn⟩

theorem exists_setOlder (hseg : Segment c.nodes none pre older)
    (hnew : c.newest = firstOr pre older)
    (hnodup : (pre.map Prod.fst).Nodup) (link : Option Arena.Index) :
    ∃ nodes, c.setOlder (lastOr pre none) link =
        some { c with nodes, newest := firstOr pre link } ∧
      Segment nodes none pre link ∧ ∀ j, j ∉ pre.map Prod.fst → nodes.get? j = c.nodes.get? j := by
  rcases List.eq_nil_or_concat pre with rfl | ⟨front, p, rfl⟩
  · exact ⟨c.nodes, rfl, trivial, fun _ _ => rfl⟩
  · rw [List.concat_eq_append] at *
    have hp := (segment_concat front p none older).1 hseg
    obtain ⟨nodes, hm, hn⟩ := exists_modify hp.2 fun n => { n with older := link }
    have hlast : p.1 ∉ front.map Prod.fst := by
      rw [List.map_append, List.nodup_append] at hnodup
      exact fun hf => hnodup.2.2 _ hf p.1 (by simp) rfl
    refine ⟨nodes, ?_, hseg.setLast hlast hn, fun j hj => ?_⟩
    · have hfirst : c.newest = firstOr (front ++ [p]) link := by
        rw [hnew]
        cases front <;> rfl
      rw [lastOr_append, lastOr_cons, lastOr_nil, setOlder, hm, ← hfirst]
    · have hne : j ≠ p.1 := by
        rintro rfl
        simp at hj
      rw [hn, if_neg hne]

theorem exists_setNewer (hseg : Segment c.nodes newer post none)
    (hold : c.oldest = lastOr post newer) (hnodup : (post.map Prod.fst).Nodup)
    (link : Option Arena.Index) :
    ∃ nodes, c.setNewer (firstOr post none) link =
        some { c with nodes, oldest := lastOr post link } ∧
      Segment nodes link post none ∧
        ∀ j, j ∉ post.map Prod.fst → nodes.get? j = c.nodes.get? j := by
  cases post with
  | nil => exact ⟨c.nodes, rfl, trivial, fun _ _ => rfl⟩
  | cons p rest =>
    obtain ⟨nodes, hm, hn⟩ := exists_modify hseg.1 fun n => { n with newer := link }
    refine ⟨nodes, ?_, hseg.setFirst (List.nodup_cons.1 hnodup).1 hn, fun j hj => ?_⟩
    · have hlast : c.oldest = lastOr (p :: rest) link := by rw [hold, lastOr_cons, lastOr_cons]
      rw [firstOr_cons, setNewer, hm, ← hlast]
    · have hne : j ≠ p.1 := by
        rintro rfl
        simp at hj
      rw [hn, if_neg hne]

/-- Joining the neighbours of a node takes it out of the links. -/
theorem Links.exists_unlink (h : c.Links (pre ++ (i, e) :: post)) :
    ∃ nodes newest oldest, c.unlink i = some { c with nodes, newest, oldest } ∧
      Links { c with nodes, newest, oldest } (pre ++ post) ∧
      ∀ j, j ∉ (pre ++ post).map Prod.fst → nodes.get? j = c.nodes.get? j := by
  have hnodup := nodup_of_split h.nodup
  have hparts := hnodup
  rw [List.map_append, List.nodup_append] at hparts
  obtain ⟨hpre, -, hpost⟩ := (segment_append pre ((i, e) :: post) none none).1 h.segment
  have hnew := h.newest
  rw [firstOr_append] at hnew
  obtain ⟨nodes, hm, hseg, hn⟩ := exists_setOlder hpre hnew hparts.1 (firstOr post none)
  have hold := h.oldest
  rw [lastOr_append, lastOr_cons] at hold
  have hpost' : Segment nodes (some i) post none := hpost.congr fun j hj =>
    hn j fun hj' => hparts.2.2 j hj' j hj rfl
  obtain ⟨nodes', hm', hseg', hn'⟩ := exists_setNewer
    (c := { c with nodes, newest := firstOr pre (firstOr post none) }) hpost' hold hparts.2.1
    (lastOr pre none)
  have hfront : Segment nodes' none pre (firstOr post none) := hseg.congr fun j hj =>
    hn' j fun hj' => hparts.2.2 j hj j hj' rfl
  refine ⟨nodes', firstOr pre (firstOr post none), lastOr post (lastOr pre none), ?_,
    ⟨hnodup, (firstOr_append pre post none).symm, (lastOr_append pre post none).symm,
      (segment_append pre post none none).2 ⟨hfront, hseg'⟩⟩, fun j hj => ?_⟩
  · rw [unlink, h.segment.get?]
    simp only [Option.bind_eq_bind, Option.bind_some, hm, hm']
  · rw [List.map_append, List.mem_append, not_or] at hj
    rw [hn' j hj.2]
    exact hn j hj.1

/-- A node that is not linked goes in front of the newest one. -/
theorem Links.exists_linkFront {n : Node α} (h : c.Links ps) (hi : i ∉ ps.map Prod.fst)
    (hn : c.nodes.get? i = some n) :
    ∃ nodes newest oldest, c.linkFront i = some { c with nodes, newest, oldest } ∧
      Links { c with nodes, newest, oldest } ((i, n.toEntry) :: ps) ∧
      ∀ j, j ∉ i :: ps.map Prod.fst → nodes.get? j = c.nodes.get? j := by
  obtain ⟨nodes, hm, hg⟩ := exists_modify hn fun n => { n with newer := none, older := c.newest }
  have hself : nodes.get? i = some ⟨n.toEntry, none, firstOr ps none⟩ := by
    rw [hg, if_pos rfl, h.newest]
  have hseg : Segment nodes none ps none := h.segment.congr fun j hj => by
    have hne : j ≠ i := fun hji => hi (hji ▸ hj)
    rw [hg, if_neg hne]
  have hnodup : (((i, n.toEntry) :: ps).map Prod.fst).Nodup := List.nodup_cons.2 ⟨hi, h.nodup⟩
  have hold : c.oldest.or (some i) = lastOr ps (some i) := by
    rw [h.oldest, lastOr, lastOr, Option.or_assoc, Option.none_or]
  have hother (j : Arena.Index) (hj : j ∉ i :: ps.map Prod.fst) :
      nodes.get? j = c.nodes.get? j := by
    have hne : j ≠ i := fun hji => hj (hji ▸ List.mem_cons_self)
    rw [hg, if_neg hne]
  cases ps with
  | nil =>
    have hfront : c.newest = none := h.newest
    refine ⟨nodes, some i, some i, ?_, ⟨hnodup, rfl, rfl, hself, trivial⟩, hother⟩
    simp only [linkFront, hm, Option.bind_eq_bind, Option.bind_some]
    simp only [hfront, linkBack, Option.bind_some, hold]
    rfl
  | cons p rest =>
    have hfront : c.newest = some p.1 := h.newest
    obtain ⟨nodes', hm', hg'⟩ := exists_modify
      (c := { c with nodes, newest := some i }) hseg.1 fun n => { n with newer := some i }
    have hne : i ≠ p.1 := fun hip => hi (hip ▸ List.mem_cons_self)
    have hrest : Segment nodes' (some i) (p :: rest) none :=
      hseg.setFirst (List.nodup_cons.1 h.nodup).1 hg'
    refine ⟨nodes', some i, lastOr (p :: rest) (some i), ?_, ⟨hnodup, rfl, rfl, ?_, hrest⟩,
      fun j hj => ?_⟩
    · simp only [linkFront, hm, Option.bind_eq_bind, Option.bind_some]
      simp only [hfront, linkBack, hm', Option.bind_some, hold]
      rfl
    · rw [hg', if_neg hne]
      exact hself
    · have hjp : j ≠ p.1 := by
        rintro rfl
        simp at hj
      rw [hg', if_neg hjp]
      exact hother j hj

/-- Any node can go to the front. -/
theorem Links.exists_moveToFront (h : c.Links (pre ++ (i, e) :: post)) :
    ∃ nodes newest oldest, c.moveToFront i = some { c with nodes, newest, oldest } ∧
      Links { c with nodes, newest, oldest } ((i, e) :: (pre ++ post)) ∧
      ∀ j, j ∉ (pre ++ (i, e) :: post).map Prod.fst → nodes.get? j = c.nodes.get? j := by
  unfold moveToFront
  split
  · rename_i hnew
    cases pre with
    | nil => exact ⟨c.nodes, c.newest, c.oldest, rfl, h, fun _ _ => rfl⟩
    | cons p pre =>
      rw [h.newest, List.cons_append, firstOr_cons, Option.some.injEq] at hnew
      exact absurd (by simp [hnew]) (notMem_of_split h.nodup)
  · have hi := notMem_of_split h.nodup
    obtain ⟨nodes, newest, oldest, hm, hlinks, hg⟩ := h.exists_unlink
    have hself := (hg i hi).trans h.segment.get?
    obtain ⟨nodes', newest', oldest', hm', hlinks', hg'⟩ := hlinks.exists_linkFront hi hself
    refine ⟨nodes', newest', oldest', ?_, hlinks', fun j hj => ?_⟩
    · simp only [hm, Option.bind_eq_bind, Option.bind_some, hm']
    · have hperm : ((pre ++ (i, e) :: post).map Prod.fst).Perm (i :: (pre ++ post).map Prod.fst) :=
        List.perm_middle.map Prod.fst
      rw [hperm.mem_iff] at hj
      rw [hg' j hj]
      exact hg j fun hj' => hj (List.mem_cons_of_mem i hj')

/-! ## The lookup table -/

section Finds

variable {lookup : Std.TreeMap String Arena.Index}

/-- An entry is replaced by another one for its key. -/
theorem Finds.replace (h : Finds lookup (pre ++ (i, e) :: post)) (hd : d.key = e.key) :
    Finds lookup (pre ++ (i, d) :: post) := by
  intro key j
  rw [h key j]
  simp only [List.perm_middle.mem_iff, List.mem_cons, Prod.mk.injEq]
  constructor
  · rintro ⟨x, ⟨rfl, rfl⟩ | hx, hk⟩
    · exact ⟨d, .inl ⟨rfl, rfl⟩, hd.trans hk⟩
    · exact ⟨x, .inr hx, hk⟩
  · rintro ⟨x, ⟨rfl, rfl⟩ | hx, hk⟩
    · exact ⟨e, .inl ⟨rfl, rfl⟩, hd.symm.trans hk⟩
    · exact ⟨x, .inr hx, hk⟩

theorem Finds.insert (h : Finds lookup ps) (hk : lookup[e.key]? = none) :
    Finds (lookup.insert e.key i) ((i, e) :: ps) := by
  intro key j
  rw [Std.TreeMap.getElem?_insert]
  simp only [Std.compare_eq_iff_eq, List.mem_cons, Prod.mk.injEq]
  split
  · rename_i hkey
    subst hkey
    constructor
    · intro hij
      exact ⟨e, .inl ⟨(Option.some.inj hij).symm, rfl⟩, rfl⟩
    · rintro ⟨x, ⟨rfl, -⟩ | hx, hxk⟩
      · rfl
      · have hs := (h e.key j).2 ⟨x, hx, hxk⟩
        rw [hk] at hs
        cases hs
  · rename_i hkey
    rw [h key j]
    constructor
    · rintro ⟨x, hx, hxk⟩
      exact ⟨x, .inr hx, hxk⟩
    · rintro ⟨x, ⟨-, rfl⟩ | hx, hxk⟩
      · exact absurd hxk hkey
      · exact ⟨x, hx, hxk⟩

theorem Finds.erase (h : Finds lookup (pre ++ (i, e) :: post))
    (hne : e.key ∉ ((pre ++ post).map Prod.snd).map Entry.key) :
    Finds (lookup.erase e.key) (pre ++ post) := by
  intro key j
  rw [Std.TreeMap.getElem?_erase]
  simp only [Std.compare_eq_iff_eq]
  split
  · rename_i hkey
    subst hkey
    refine ⟨nofun, fun ⟨x, hx, hxk⟩ => absurd ?_ hne⟩
    rw [← hxk]
    exact List.mem_map_of_mem (List.mem_map_of_mem hx)
  · rename_i hkey
    rw [h key j]
    simp only [List.perm_middle.mem_iff, List.mem_cons, Prod.mk.injEq]
    constructor
    · rintro ⟨x, ⟨rfl, rfl⟩ | hx, hxk⟩
      · exact absurd hxk hkey
      · exact ⟨x, hx, hxk⟩
    · rintro ⟨x, hx, hxk⟩
      exact ⟨x, .inr hx, hxk⟩

end Finds

/-! ## The total of the costs -/

section Totals

variable {total sum cost : Nat} {overflowed : Bool}

theorem totals_zero (overflowed : Bool) : Totals 0 overflowed 0 :=
  ⟨by decide, Nat.le_refl 0, fun _ => rfl⟩

theorem Totals.drop (h : Totals total overflowed (cost + sum)) :
    Totals (total - cost) overflowed sum where
  totalCost_lt := Nat.lt_of_le_of_lt (Nat.sub_le _ _) h.totalCost_lt
  totalCost_le := Nat.sub_le_iff_le_add'.2 h.totalCost_le
  totalCost ho := by rw [h.totalCost ho, Nat.add_sub_cancel_left]

theorem Totals.add (h : Totals total overflowed sum) (cost : Nat) :
    Totals (Word.add total cost) (overflowed || Word.overflows total cost) (cost + sum) where
  totalCost_lt := Word.add_lt _ _
  totalCost_le := by
    rw [Nat.add_comm]
    exact Nat.le_trans (Word.add_le _ _) (Nat.add_le_add_right h.totalCost_le cost)
  totalCost ho := by
    obtain ⟨hbefore, hfits⟩ := Bool.or_eq_false_iff.1 ho
    rw [Word.add_eq (Word.overflows_eq_false_iff.1 hfits), h.totalCost hbefore, Nat.add_comm]

end Totals

/-! ## Entries and their indices -/

theorem holds_empty : (empty : RecencyChain α).Holds [] where
  nodup := List.nodup_nil
  newest := rfl
  oldest := rfl
  segment := trivial
  only _ _ := rfl
  nodupKeys := List.nodup_nil
  lookup key i := by simp [empty]
  toTotals := totals_zero false

/-- A chain whose keys are found has the entry for a key at the index that is looked up. -/
theorem Holds.split (h : c.Holds ps) (hk : c.lookup[key]? = some i) :
    ∃ pre e post, ps = pre ++ (i, e) :: post ∧ e.key = key := by
  obtain ⟨e, he, hek⟩ := (h.lookup key i).1 hk
  obtain ⟨pre, post, hs⟩ := List.append_of_mem he
  exact ⟨pre, e, post, hs, hek⟩

theorem Holds.lookup_eq_none_iff (h : c.Holds ps) :
    c.lookup[key]? = none ↔ key ∉ (ps.map Prod.snd).map Entry.key := by
  constructor
  · intro hn hk
    obtain ⟨e, he, rfl⟩ := List.mem_map.1 hk
    obtain ⟨⟨i, e⟩, hp, rfl⟩ := List.mem_map.1 he
    have hs := (h.lookup e.key i).2 ⟨e, hp, rfl⟩
    rw [hn] at hs
    cases hs
  · intro hk
    cases hl : c.lookup[key]? with
    | none => rfl
    | some i =>
      obtain ⟨e, he, rfl⟩ := (h.lookup key i).1 hl
      exact absurd (List.mem_map_of_mem (List.mem_map_of_mem he)) hk

/-- Other links through the same nodes. -/
theorem Holds.relink {newest oldest : Option Arena.Index} (h : c.Holds ps)
    (hlinks : Links { c with nodes, newest, oldest } qs) (hperm : qs.Perm ps)
    (hg : ∀ j, j ∉ ps.map Prod.fst → nodes.get? j = c.nodes.get? j) :
    Holds { c with nodes, newest, oldest } qs where
  toLinks := hlinks
  only j hj := by
    rw [(hperm.map Prod.fst).mem_iff] at hj
    exact (hg j hj).trans (h.only j hj)
  nodupKeys := ((hperm.map Prod.snd).map Entry.key).nodup_iff.2 h.nodupKeys
  lookup key i := by simp only [hperm.mem_iff, h.lookup key i]
  toTotals := by
    rw [RecencyList.costSum_perm (hperm.map Prod.snd)]
    exact h.toTotals

theorem Holds.exists_moveToFront (h : c.Holds (pre ++ (i, e) :: post)) :
    ∃ c', c.moveToFront i = some c' ∧ c'.Holds ((i, e) :: (pre ++ post)) ∧
      c'.totalCost = c.totalCost ∧ c'.overflowed = c.overflowed := by
  obtain ⟨nodes, newest, oldest, hm, hlinks, hg⟩ := h.toLinks.exists_moveToFront
  exact ⟨_, hm, h.relink hlinks List.perm_middle.symm hg, rfl, rfl⟩

theorem map_snd_split (pre post : List (Place α)) (i : Arena.Index) (e : Entry α) :
    (pre ++ (i, e) :: post).map Prod.snd = pre.map Prod.snd ++ e :: post.map Prod.snd := by
  rw [List.map_append, List.map_cons]

/-- The total, when the entry at an index is known. -/
theorem costSum_split (pre post : List (Place α)) (i : Arena.Index) (e : Entry α) :
    costSum ((pre ++ (i, e) :: post).map Prod.snd) =
      e.cost + costSum ((pre ++ post).map Prod.snd) := by
  rw [map_snd_split, RecencyList.costSum_split, List.map_append]

theorem Holds.keys_split (h : c.Holds (pre ++ (i, e) :: post)) :
    e.key ∉ ((pre ++ post).map Prod.snd).map Entry.key ∧
      (((pre ++ post).map Prod.snd).map Entry.key).Nodup := by
  have hn := h.nodupKeys
  rwa [map_snd_split, RecencyList.nodup_keys_split, ← List.map_append] at hn

/-- The entries for other keys, when the entry at an index is known. -/
theorem Holds.without_eq (h : c.Holds (pre ++ (i, e) :: post)) :
    without ((pre ++ (i, e) :: post).map Prod.snd) e.key = (pre ++ post).map Prod.snd := by
  have hn := h.nodupKeys
  rw [map_snd_split] at hn ⊢
  rw [RecencyList.without_split hn, List.map_append]

theorem Holds.entryFor_eq (h : c.Holds (pre ++ (i, e) :: post)) :
    entryFor ((pre ++ (i, e) :: post).map Prod.snd) e.key = some e := by
  have hn := h.nodupKeys
  rw [map_snd_split] at hn ⊢
  exact RecencyList.entryFor_split hn

/-- The content of an entry is replaced. -/
theorem Holds.exists_replace (h : c.Holds (pre ++ (i, e) :: post)) (value : α) (cost : Nat) :
    ∃ c', ((c.dropCost e.cost).addCost cost).modify i (fun n => { n with value, cost }) = some c' ∧
      c'.Holds (pre ++ (i, ⟨e.key, value, cost⟩) :: post) ∧
      c'.overflowed = (c.overflowed || Word.overflows (c.totalCost - e.cost) cost) := by
  obtain ⟨nodes, hm, hg⟩ := exists_modify (c := (c.dropCost e.cost).addCost cost)
    h.segment.get? fun n => { n with value, cost }
  have hfst : (pre ++ (i, (⟨e.key, value, cost⟩ : Entry α)) :: post).map Prod.fst =
      (pre ++ (i, e) :: post).map Prod.fst := by simp
  have hkeys : ((pre ++ (i, (⟨e.key, value, cost⟩ : Entry α)) :: post).map Prod.snd).map Entry.key =
      ((pre ++ (i, e) :: post).map Prod.snd).map Entry.key := by simp
  refine ⟨_, hm, ⟨⟨?_, ?_, ?_, h.segment.replace (notMem_of_split h.nodup) hg⟩, ?_, fun j hj => ?_,
    ?_, h.lookup.replace rfl⟩, rfl⟩
  · rw [hfst]
    exact h.nodup
  · refine h.newest.trans ?_
    simp only [firstOr_append, firstOr_cons]
  · refine h.oldest.trans ?_
    simp only [lastOr_append, lastOr_cons]
  · have htotals := h.toTotals
    rw [costSum_split] at htotals ⊢
    exact htotals.drop.add cost
  · rw [hfst] at hj
    have hne : j ≠ i := by
      rintro rfl
      simp at hj
    rw [hg, if_neg hne]
    exact h.only j hj
  · rw [hkeys]
    exact h.nodupKeys

/-- The indices of the entries are live. -/
theorem Links.notMem_of_get?_eq_none (h : c.Links ps) (hi : c.nodes.get? i = none) :
    i ∉ ps.map Prod.fst := by
  intro hm
  obtain ⟨⟨i, e⟩, hp, rfl⟩ := List.mem_map.1 hm
  obtain ⟨pre, post, rfl⟩ := List.append_of_mem hp
  rw [h.segment.get?] at hi
  cases hi

/-- A new entry gets a node of its own. -/
theorem Holds.exists_add {added : Arena (Node α)} {value : α} {cost : Nat} (h : c.Holds ps)
    (hk : c.lookup[key]? = none) (hi : c.nodes.get? i = none)
    (hg : ∀ j, added.get? j =
      if j = i then some ⟨⟨key, value, cost⟩, none, none⟩ else c.nodes.get? j) :
    ∃ c', ({ c with nodes := added, lookup := c.lookup.insert key i }.addCost cost).linkFront i =
        some c' ∧
      c'.Holds ((i, ⟨key, value, cost⟩) :: ps) ∧
      c'.overflowed = (c.overflowed || Word.overflows c.totalCost cost) := by
  have hmem := h.notMem_of_get?_eq_none hi
  have hother (j : Arena.Index) (hj : j ≠ i) : added.get? j = c.nodes.get? j := by
    rw [hg, if_neg hj]
  have hlinks :
      Links ({ c with nodes := added, lookup := c.lookup.insert key i }.addCost cost) ps :=
    ⟨h.nodup, h.newest, h.oldest, h.segment.congr fun j hj => hother j fun hji => hmem (hji ▸ hj)⟩
  obtain ⟨nodes, newest, oldest, hm, hlinks', hg'⟩ := hlinks.exists_linkFront hmem
    ((hg i).trans (if_pos rfl))
  refine ⟨_, hm, ⟨hlinks', h.toTotals.add cost, fun j hj => ?_, ?_,
    h.lookup.insert (e := ⟨key, value, cost⟩) hk⟩, rfl⟩
  · have hj' := hj
    rw [List.map_cons, List.mem_cons, not_or] at hj'
    exact (hg' j hj).trans ((hother j hj'.1).trans (h.only j hj'.2))
  · exact List.nodup_cons.2 ⟨h.lookup_eq_none_iff.1 hk, h.nodupKeys⟩

/-- A node goes out. -/
theorem Links.exists_detach (h : c.Links (pre ++ (i, e) :: post)) :
    ∃ nodes newest oldest,
      c.detach i =
        some (e, { c with nodes, newest, oldest, totalCost := c.totalCost - e.cost }) ∧
      Links { c with nodes, newest, oldest, totalCost := c.totalCost - e.cost } (pre ++ post) ∧
      ∀ j, j ∉ (pre ++ post).map Prod.fst →
        nodes.get? j = if j = i then none else c.nodes.get? j := by
  have hi := notMem_of_split h.nodup
  obtain ⟨nodes, newest, oldest, hm, hlinks, hg⟩ := h.exists_unlink
  obtain ⟨nodes', hr, hg'⟩ := Arena.exists_remove? ((hg i hi).trans h.segment.get?)
  refine ⟨nodes', newest, oldest, ?_, ⟨hlinks.nodup, hlinks.newest, hlinks.oldest,
    hlinks.segment.congr fun j hj => ?_⟩, fun j hj => ?_⟩
  · simp only [detach, hm, Option.bind_eq_bind, Option.bind_some, hr]
    rfl
  · have hne : j ≠ i := fun hji => hi (hji ▸ hj)
    rw [hg', if_neg hne]
  · rw [hg', hg j hj]

/-- Taking an entry out of the chain and its key out of the lookup table. -/
theorem Holds.detached {newest oldest : Option Arena.Index} (h : c.Holds (pre ++ (i, e) :: post))
    (hlinks : Links { c with nodes, newest, oldest } (pre ++ post))
    (hg : ∀ j, j ∉ (pre ++ post).map Prod.fst →
      nodes.get? j = if j = i then none else c.nodes.get? j) :
    Holds
      { c with
        nodes, newest, oldest
        lookup := c.lookup.erase e.key
        totalCost := c.totalCost - e.cost }
      (pre ++ post) where
  nodup := hlinks.nodup
  newest := hlinks.newest
  oldest := hlinks.oldest
  segment := hlinks.segment
  only j hj := by
    rw [hg j hj]
    split
    · rfl
    · rename_i hne
      refine h.only j fun hm => ?_
      rw [(List.perm_middle.map Prod.fst).mem_iff, List.map_cons, List.mem_cons] at hm
      exact hm.elim hne hj
  nodupKeys := h.keys_split.2
  lookup := h.lookup.erase h.keys_split.1
  toTotals := by
    have htotals := h.toTotals
    rw [costSum_split] at htotals
    exact htotals.drop

/-! ## Operations -/

theorem Holds.exists_pushFront (h : c.Holds ps) (key : String) (value : α) (cost : Nat) :
    ∃ c' qs, c.pushFront key value cost =
        some ((entryFor (ps.map Prod.snd) key).map Entry.value, c') ∧ c'.Holds qs ∧
      qs.map Prod.snd = ⟨key, value, cost⟩ :: without (ps.map Prod.snd) key ∧
      c'.overflowed = (c.overflowed ||
        Word.overflows (c.totalCost - ((entryFor (ps.map Prod.snd) key).elim 0 Entry.cost))
          cost) := by
  cases hk : c.lookup[key]? with
  | some i =>
    obtain ⟨pre, e, post, rfl, rfl⟩ := h.split hk
    obtain ⟨c₁, hm, hreplaced, hflag⟩ := h.exists_replace value cost
    obtain ⟨c₂, hm', hmoved, -, hflag'⟩ := hreplaced.exists_moveToFront
    refine ⟨c₂, _, ?_, hmoved, ?_, ?_⟩
    · simp only [RecencyChain.pushFront, hk, h.segment.get?, Option.bind_eq_bind, Option.bind_some,
        hm, hm', h.entryFor_eq]
      rfl
    · rw [h.without_eq, List.map_cons]
    · rw [hflag', hflag, h.entryFor_eq]
      rfl
  | none =>
    have hkey := h.lookup_eq_none_iff.1 hk
    obtain ⟨c', hm, hadded, hflag⟩ := h.exists_add hk (c.nodes.get?_insert_fst _)
      (c.nodes.get?_insert ⟨⟨key, value, cost⟩, none, none⟩)
    refine ⟨c', _, ?_, hadded, ?_, ?_⟩
    · simp only [RecencyChain.pushFront, hk, Option.bind_eq_bind, hm, Option.bind_some,
        RecencyList.entryFor_eq_none_iff.2 hkey]
      rfl
    · rw [RecencyList.without_of_not_mem hkey, List.map_cons]
    · rw [hflag, RecencyList.entryFor_eq_none_iff.2 hkey]
      rfl

theorem Holds.exists_touch (h : c.Holds ps) (key : String) :
    ∃ c' qs, c.touch key = some ((entryFor (ps.map Prod.snd) key).map Entry.value, c') ∧
      c'.Holds qs ∧
      qs.map Prod.snd =
        (entryFor (ps.map Prod.snd) key).toList ++ without (ps.map Prod.snd) key ∧
      c'.totalCost = c.totalCost ∧ c'.overflowed = c.overflowed := by
  cases hk : c.lookup[key]? with
  | some i =>
    obtain ⟨pre, e, post, rfl, rfl⟩ := h.split hk
    obtain ⟨c', hm, hmoved, hsum⟩ := h.exists_moveToFront
    refine ⟨c', _, ?_, hmoved, ?_, hsum⟩
    · have hself := hmoved.segment.1
      simp only [RecencyChain.touch, hk, Option.bind_eq_bind, hm, Option.bind_some, hself,
        h.entryFor_eq]
      rfl
    · rw [h.entryFor_eq, h.without_eq]
      rfl
  | none =>
    have hkey := h.lookup_eq_none_iff.1 hk
    refine ⟨c, ps, ?_, h, ?_, rfl, rfl⟩
    · simp only [RecencyChain.touch, hk, RecencyList.entryFor_eq_none_iff.2 hkey]
      rfl
    · rw [RecencyList.entryFor_eq_none_iff.2 hkey, RecencyList.without_of_not_mem hkey]
      rfl

theorem Holds.peekBack_eq (h : c.Holds ps) :
    c.peekBack = some ((ps.map Prod.snd).getLast?.map Entry.key) := by
  rcases List.eq_nil_or_concat ps with rfl | ⟨front, ⟨i, e⟩, rfl⟩
  · have hold : c.oldest = none := h.oldest
    simp only [RecencyChain.peekBack, hold]
    rfl
  · rw [List.concat_eq_append] at h ⊢
    have hold : c.oldest = some i := by rw [h.oldest, lastOr_append, lastOr_cons, lastOr_nil]
    have hself := h.segment.get?
    simp only [RecencyChain.peekBack, hold, Option.bind_eq_bind, hself, Option.bind_some]
    rw [List.map_append]
    simp

theorem Holds.popBack_nil (h : c.Holds []) : c.popBack = some none := by
  have hold : c.oldest = none := h.oldest
  rw [RecencyChain.popBack, hold]

theorem Holds.exists_popBack (h : c.Holds (ps ++ [(i, e)])) :
    ∃ c', c.popBack = some (some (e, c')) ∧ c'.Holds ps ∧ c'.totalCost = c.totalCost - e.cost ∧
      c'.overflowed = c.overflowed ∧ c'.lookup = c.lookup.erase e.key := by
  have hold : c.oldest = some i := by rw [h.oldest, lastOr_append, lastOr_cons, lastOr_nil]
  obtain ⟨nodes, newest, oldest, hm, hlinks, hg⟩ := h.toLinks.exists_detach
  have hrest := h.detached ⟨hlinks.nodup, hlinks.newest, hlinks.oldest, hlinks.segment⟩ hg
  rw [List.append_nil] at hrest
  refine ⟨_, ?_, hrest, rfl, rfl, rfl⟩
  simp only [RecencyChain.popBack, hold, Option.bind_eq_bind, hm, Option.bind_some]
  rfl

theorem Holds.remove_of_not_mem (h : c.Holds ps) (hk : key ∉ (ps.map Prod.snd).map Entry.key) :
    c.remove key = some none := by
  rw [RecencyChain.remove, h.lookup_eq_none_iff.2 hk]

theorem Holds.exists_remove (h : c.Holds (pre ++ (i, e) :: post)) :
    ∃ c', c.remove e.key = some (some (e, c')) ∧ c'.Holds (pre ++ post) ∧
      c'.totalCost = c.totalCost - e.cost ∧ c'.overflowed = c.overflowed := by
  have hk : c.lookup[e.key]? = some i := (h.lookup e.key i).2 ⟨e, by simp, rfl⟩
  obtain ⟨nodes, newest, oldest, hm, hlinks, hg⟩ := Links.exists_detach
    (c := { c with lookup := c.lookup.erase e.key })
    ⟨h.nodup, h.newest, h.oldest, h.segment⟩
  refine ⟨_, ?_, h.detached ⟨hlinks.nodup, hlinks.newest, hlinks.oldest, hlinks.segment⟩ hg, rfl,
    rfl⟩
  simp only [RecencyChain.remove, hk, Option.bind_eq_bind, hm, Option.bind_some]
  rfl

theorem holds_clear (c : RecencyChain α) : c.clear.Holds [] where
  nodup := List.nodup_nil
  newest := rfl
  oldest := rfl
  segment := trivial
  only _ _ := rfl
  nodupKeys := List.nodup_nil
  lookup key i := by simp [clear]
  toTotals := totals_zero c.overflowed

/-! ## Soundness -/

/-- The links of a chain run through some entries. -/
def IsSound (c : RecencyChain α) : Prop := ∃ ps, c.Holds ps

theorem IsSound.exists_pushFront (h : c.IsSound) (key : String) (value : α) (cost : Nat) :
    ∃ r, c.pushFront key value cost = some r ∧ r.2.IsSound := by
  obtain ⟨ps, hps⟩ := h
  obtain ⟨c', qs, hc, hqs, -⟩ := hps.exists_pushFront key value cost
  exact ⟨_, hc, qs, hqs⟩

theorem IsSound.exists_touch (h : c.IsSound) (key : String) :
    ∃ r, c.touch key = some r ∧ r.2.IsSound := by
  obtain ⟨ps, hps⟩ := h
  obtain ⟨c', qs, hc, hqs, -⟩ := hps.exists_touch key
  exact ⟨_, hc, qs, hqs⟩

theorem IsSound.isSome_peekBack (h : c.IsSound) : c.peekBack.isSome := by
  obtain ⟨ps, hps⟩ := h
  rw [hps.peekBack_eq]
  rfl

/-- When an entry is taken out, there is one key less. -/
theorem IsSound.exists_popBack (h : c.IsSound) :
    ∃ r, c.popBack = some r ∧ ∀ p ∈ r, p.2.IsSound ∧ p.2.size < c.size := by
  obtain ⟨ps, hps⟩ := h
  rcases List.eq_nil_or_concat ps with rfl | ⟨front, ⟨i, e⟩, rfl⟩
  · exact ⟨none, hps.popBack_nil, nofun⟩
  · rw [List.concat_eq_append] at hps
    obtain ⟨c', hc, hfront, -, -, hlookup⟩ := hps.exists_popBack
    refine ⟨_, hc, fun p hp => ?_⟩
    obtain rfl := Option.some.inj hp
    refine ⟨⟨front, hfront⟩, ?_⟩
    have hi : c.lookup[e.key]? = some i := (hps.lookup e.key i).2 ⟨e, by simp, rfl⟩
    have hmem : c.lookup.contains e.key = true := by
      rw [Std.TreeMap.contains_eq_isSome_getElem?, hi]
      rfl
    have hpos : c.lookup.size ≠ 0 := by
      intro h0
      have hempty : c.lookup.isEmpty = true := by
        rw [Std.TreeMap.isEmpty_eq_size_eq_zero, h0]
        rfl
      rw [Std.TreeMap.contains_of_isEmpty hempty] at hmem
      cases hmem
    rw [size, size, hlookup, Std.TreeMap.size_erase, if_pos hmem]
    omega

theorem IsSound.exists_remove (h : c.IsSound) (key : String) :
    ∃ r, c.remove key = some r ∧ ∀ p ∈ r, p.2.IsSound := by
  obtain ⟨ps, hps⟩ := h
  cases hk : c.lookup[key]? with
  | none => exact ⟨none, hps.remove_of_not_mem (hps.lookup_eq_none_iff.1 hk), nofun⟩
  | some i =>
    obtain ⟨pre, e, post, rfl, rfl⟩ := hps.split hk
    obtain ⟨c', hc, hrest, -⟩ := hps.exists_remove
    refine ⟨_, hc, fun p hp => ?_⟩
    obtain rfl := Option.some.inj hp
    exact ⟨_, hrest⟩

end RecencyChain

end PodCache
