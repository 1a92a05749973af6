import PodCache.Proofs.Local.RecencyList

/-!
# Lists cut by cost

A list of entries is cut behind the shortest prefix that costs enough, or behind its last entry when
all together cost less (`RecencyList.Cuts need es front rest`).  There is one such cut
(`Cuts.unique`).  Two lists one behind the other are cut by cutting the first, and the second for
what is still needed (`Cuts.append`); cutting the rest again gives the cut for the sum of what the
first prefix costs and what is needed more (`Cuts.add`).
-/

namespace PodCache.RecencyList

variable {α : Type} {es es' front front' rest rest' other : List (Entry α)} {e : Entry α}
  {need more : Nat}

/-- Entries are cut into the shortest prefix that costs enough, or all of them, and the rest. -/
structure Cuts (need : Nat) (es front rest : List (Entry α)) : Prop where
  split : es = front ++ rest
  enough : need ≤ costSum front ∨ rest = []
  shortest : ∀ other, other <+: es → need ≤ costSum other → front.length ≤ other.length

/-! ## One list -/

theorem cuts_zero (es : List (Entry α)) : Cuts 0 es [] es :=
  ⟨rfl, .inl (Nat.zero_le _), fun _ _ _ => Nat.zero_le _⟩

theorem cuts_nil (need : Nat) : Cuts (α := α) need [] [] [] :=
  ⟨rfl, .inr rfl, fun _ _ _ => Nat.zero_le _⟩

theorem Cuts.cons (h : Cuts (need - e.cost) es front rest) (hneed : need ≠ 0) :
    Cuts need (e :: es) (e :: front) rest where
  split := congrArg (e :: ·) h.split
  enough := by
    rw [costSum_cons]
    exact h.enough.imp_left fun hle => by omega
  shortest other hother hle := by
    rcases List.prefix_cons_iff.1 hother with rfl | ⟨later, rfl, hlater⟩
    · exact absurd (Nat.le_zero.1 hle) hneed
    · rw [costSum_cons] at hle
      exact Nat.succ_le_succ (h.shortest later hlater (by omega))

theorem Cuts.front_eq_nil (h : Cuts 0 es front rest) : front = [] :=
  List.length_eq_zero_iff.1 (Nat.le_zero.1 (h.shortest [] List.nil_prefix (Nat.zero_le _)))

/-- From the old end of a list that holds the newest entry first. -/
theorem Cuts.eq_append (h : Cuts need es.reverse front rest.reverse) :
    es = rest ++ front.reverse := by
  rw [← List.reverse_reverse es, h.split, List.reverse_append, List.reverse_reverse]

theorem Cuts.rest_eq_nil (h : Cuts need es front rest) (hless : costSum es < need) : rest = [] := by
  refine h.enough.resolve_left fun hle => ?_
  rw [h.split, costSum_append] at hless
  omega

theorem Cuts.length_le (h : Cuts need es front rest) (h' : Cuts need es front' rest') :
    front.length ≤ front'.length := by
  rcases h'.enough with hle | rfl
  · exact h.shortest front' ⟨rest', h'.split.symm⟩ hle
  · rw [← List.append_nil front', ← h'.split, h.split, List.length_append]
    exact Nat.le_add_right _ _

/-- There is one cut. -/
theorem Cuts.unique (h : Cuts need es front rest) (h' : Cuts need es front' rest') :
    front = front' ∧ rest = rest' :=
  List.append_inj (h.split.symm.trans h'.split)
    (Nat.le_antisymm (h.length_le h') (h'.length_le h))

/-! ## Two cuts -/

/-- A prefix of two lists one behind the other ends in the first or in the second. -/
theorem ends_in_first_or_second (h : other <+: front ++ rest) :
    other <+: front ∨ ∃ later, other = front ++ later ∧ later <+: rest := by
  rcases List.prefix_or_prefix_of_prefix h (List.prefix_append front rest) with hin | ⟨later, rfl⟩
  · exact .inl hin
  · exact .inr ⟨later, rfl, (List.prefix_append_right_inj front).1 h⟩

/-- What is missing after the first of two lists is taken from the second. -/
theorem Cuts.append (h : Cuts need es front rest)
    (h' : Cuts (need - costSum front) es' front' rest') :
    Cuts need (es ++ es') (front ++ front') (rest ++ rest') := by
  by_cases hle : need ≤ costSum front
  · rw [Nat.sub_eq_zero_of_le hle] at h'
    obtain rfl := h'.front_eq_nil
    obtain rfl : es' = rest' := h'.split
    rw [List.append_nil, h.split, List.append_assoc]
    refine ⟨rfl, .inl hle, fun other hother hcost => ?_⟩
    rcases ends_in_first_or_second hother with hin | ⟨later, rfl, -⟩
    · exact h.shortest other (hin.trans ⟨rest, h.split.symm⟩) hcost
    · rw [List.length_append]
      exact Nat.le_add_right _ _
  · obtain rfl := h.enough.resolve_left hle
    obtain rfl : es = front := h.split.trans (List.append_nil front)
    refine ⟨by rw [h'.split, List.nil_append, List.append_assoc], ?_, fun other hother hcost => ?_⟩
    · rw [costSum_append]
      exact h'.enough.imp_left fun _ => by omega
    · rcases ends_in_first_or_second hother with hin | ⟨later, rfl, hlater⟩
      · exact absurd (hcost.trans (costSum_le_of_sublist hin.sublist)) hle
      · rw [costSum_append] at hcost
        rw [List.length_append, List.length_append]
        exact Nat.add_le_add_left (h'.shortest later hlater (by omega)) _

/-- Cutting the rest again is cutting once for more. -/
theorem Cuts.add (h : Cuts need es front rest) (h' : Cuts more rest front' rest')
    (hmore : 0 < more) : Cuts (costSum front + more) es (front ++ front') rest' where
  split := by rw [h.split, h'.split, List.append_assoc]
  enough := by
    rw [costSum_append]
    exact h'.enough.imp_left (Nat.add_le_add_left · _)
  shortest other hother hcost := by
    rw [h.split] at hother
    rcases ends_in_first_or_second hother with hin | ⟨later, rfl, hlater⟩
    · have hle := costSum_le_of_sublist hin.sublist
      omega
    · rw [costSum_append] at hcost
      rw [List.length_append, List.length_append]
      exact Nat.add_le_add_left (h'.shortest later hlater (by omega)) _

end PodCache.RecencyList
