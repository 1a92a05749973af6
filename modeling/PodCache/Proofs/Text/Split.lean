import Mathlib.Tactic
import PodCache.Text.Split

/-!
# Cutting a text that was put together

Pieces that hold no separator are cut out of a text as they were put into it.
-/

namespace PodCache.Text

variable {mark c : Char} {p : Char → Bool} {cs before after piece : List Char}

theorem cutFirst_append (h : mark ∉ before) (after : List Char) :
    cutFirst mark (before ++ mark :: after) = (before, some after) := by
  induction before with
  | nil => simp [cutFirst]
  | cons c before ih =>
    rw [List.mem_cons, not_or] at h
    rw [List.cons_append, cutFirst, if_neg (Ne.symm h.1), ih h.2]

theorem cutFirst_of_not_mem (h : mark ∉ cs) : cutFirst mark cs = (cs, none) := by
  induction cs with
  | nil => rfl
  | cons c cs ih =>
    rw [List.mem_cons, not_or] at h
    rw [cutFirst, if_neg (Ne.symm h.1), ih h.2]

/-- A part that may be missing is found behind its mark. -/
theorem cutFirst_append_getD (h : mark ∉ before) (after : Option (List Char)) :
    cutFirst mark (before ++ (after.map (mark :: ·)).getD []) = (before, after) := by
  cases after with
  | none => simpa using cutFirst_of_not_mem h
  | some after => exact cutFirst_append h after

theorem mem_getD {after : Option (List Char)} (h : c ∈ (after.map (mark :: ·)).getD []) :
    c = mark ∨ ∃ text ∈ after, c ∈ text := by
  cases after with
  | none => cases h
  | some after => simpa using h

theorem cutLast_of_not_mem (h : mark ∉ cs) : cutLast mark cs = (none, cs) := by
  induction cs with
  | nil => rfl
  | cons c cs ih =>
    rw [List.mem_cons, not_or] at h
    rw [cutLast, ih h.2]
    exact if_neg (Ne.symm h.1)

theorem cutLast_append (before : List Char) (h : mark ∉ after) :
    cutLast mark (before ++ mark :: after) = (some before, after) := by
  induction before with
  | nil =>
    rw [List.nil_append, cutLast, cutLast_of_not_mem h]
    exact if_pos rfl
  | cons c before ih => rw [List.cons_append, cutLast, ih]

theorem cutLast_cases (mark : Char) (cs : List Char) :
    cutLast mark cs = (none, cs) ∨
      ∃ before after, cutLast mark cs = (some before, after) ∧ cs = before ++ mark :: after := by
  induction cs with
  | nil => exact .inl rfl
  | cons c cs ih =>
    rw [cutLast]
    rcases ih with hnone | ⟨before, after, hsome, rfl⟩
    · rw [hnone]
      dsimp only
      split_ifs with hc
      · exact .inr ⟨[], cs, rfl, by rw [hc]; rfl⟩
      · exact .inl rfl
    · rw [hsome]
      exact .inr ⟨c :: before, after, rfl, rfl⟩

theorem trim_of_forall (h : ∀ c ∈ cs, p c = false) : trim p cs = cs := by
  have hdrop : ∀ ds : List Char, (∀ c ∈ ds, p c = false) → ds.dropWhile p = ds := by
    rintro (_ | ⟨d, ds⟩) hds
    · rfl
    · exact List.dropWhile_cons_of_neg (by simp [hds d List.mem_cons_self])
  rw [trim, hdrop cs h, hdrop cs.reverse fun c hc => h c (List.mem_reverse.1 hc),
    List.reverse_reverse]

/-! ## All pieces -/

theorem splitAll_cons_of_pos (h : p c = true) (cs : List Char) :
    splitAll p (c :: cs) = [] :: splitAll p cs := by
  rw [splitAll]
  split
  · exact absurd ‹_› (splitAll_ne_nil p cs)
  · rw [if_pos h, ‹splitAll p cs = _›]

theorem splitAll_append (h : ∀ c ∈ piece, p c = false) {rest : List Char}
    {pieces : List (List Char)} (hrest : splitAll p cs = rest :: pieces) :
    splitAll p (piece ++ cs) = (piece ++ rest) :: pieces := by
  induction piece with
  | nil => exact hrest
  | cons c piece ih =>
    obtain ⟨hc, hpiece⟩ := List.forall_mem_cons.1 h
    rw [List.cons_append, splitAll, ih hpiece]
    exact if_neg (by simp [hc])

theorem splitAll_of_forall (h : ∀ c ∈ piece, p c = false) : splitAll p piece = [piece] := by
  have hnil : splitAll p [] = [] :: [] := rfl
  simpa using splitAll_append h hnil

theorem splitAll_append_cons (h : ∀ c ∈ piece, p c = false) (hc : p c = true) (cs : List Char) :
    splitAll p (piece ++ c :: cs) = piece :: splitAll p cs := by
  simpa using splitAll_append h (splitAll_cons_of_pos hc cs)

/-- Pieces that were joined by a separator are cut apart again. -/
theorem splitAll_intercalate (hmark : p mark = true) {pieces : List (List Char)}
    (hne : pieces ≠ []) (h : ∀ piece ∈ pieces, ∀ c ∈ piece, p c = false) :
    splitAll p ([mark].intercalate pieces) = pieces := by
  induction pieces with
  | nil => exact absurd rfl hne
  | cons piece pieces ih =>
    obtain ⟨hpiece, hpieces⟩ := List.forall_mem_cons.1 h
    cases pieces with
    | nil => simpa using splitAll_of_forall hpiece
    | cons next pieces =>
      rw [List.intercalate_cons_cons, List.append_assoc, List.singleton_append,
        splitAll_append_cons hpiece hmark, ih (List.cons_ne_nil _ _) hpieces]

/-- Pieces that were cut apart are joined again. -/
theorem intercalate_splitAll (mark : Char) (cs : List Char) :
    [mark].intercalate (splitAll (· == mark) cs) = cs := by
  induction cs with
  | nil => rfl
  | cons c cs ih =>
    obtain ⟨piece, pieces, hsplit⟩ :=
      List.exists_cons_of_ne_nil (splitAll_ne_nil (· == mark) cs)
    by_cases hc : c = mark
    · subst hc
      rw [splitAll_cons_of_pos (by simp), hsplit, List.intercalate_cons_cons, ← hsplit, ih]
      rfl
    · have hplain : ∀ d ∈ [c], (d == mark) = false := by simpa using hc
      have hcons : splitAll (· == mark) (c :: cs) = (c :: piece) :: pieces :=
        splitAll_append hplain hsplit
      rw [hcons]
      rw [hsplit] at ih
      cases pieces with
      | nil => simpa using ih
      | cons next pieces =>
        rw [List.intercalate_cons_cons] at ih ⊢
        simp [← ih]

theorem mem_intercalate {pieces : List (List Char)} (h : c ∈ [mark].intercalate pieces) :
    c = mark ∨ ∃ piece ∈ pieces, c ∈ piece := by
  induction pieces with
  | nil => cases h
  | cons piece pieces ih =>
    cases pieces with
    | nil => exact .inr ⟨piece, List.mem_cons_self, by simpa using h⟩
    | cons next pieces =>
      rw [List.intercalate_cons_cons, List.append_assoc, List.mem_append,
        List.singleton_append, List.mem_cons] at h
      rcases h with h | rfl | h
      · exact .inr ⟨piece, List.mem_cons_self, h⟩
      · exact .inl rfl
      · rcases ih h with rfl | ⟨other, hother, hc⟩
        · exact .inl rfl
        · exact .inr ⟨other, List.mem_cons_of_mem piece hother, hc⟩

/-- No piece holds a separator, nor anything that the text does not hold. -/
theorem mem_of_mem_splitAll (h : piece ∈ splitAll p cs) (hc : c ∈ piece) :
    c ∈ cs ∧ p c = false := by
  induction cs generalizing piece with
  | nil =>
    obtain rfl := List.mem_singleton.1 h
    cases hc
  | cons d cs ih =>
    by_cases hd : p d = true
    · rw [splitAll_cons_of_pos hd, List.mem_cons] at h
      rcases h with rfl | h
      · cases hc
      · exact ⟨List.mem_cons_of_mem d (ih h hc).1, (ih h hc).2⟩
    · obtain ⟨rest, pieces, hrest⟩ := List.exists_cons_of_ne_nil (splitAll_ne_nil p cs)
      have hplain : ∀ c ∈ [d], p c = false := by simpa using hd
      have hsplit : splitAll p (d :: cs) = (d :: rest) :: pieces := splitAll_append hplain hrest
      rw [hsplit, List.mem_cons] at h
      rcases h with rfl | h
      · rcases List.mem_cons.1 hc with rfl | hc
        · exact ⟨List.mem_cons_self, by simpa using hd⟩
        · have hmem := ih (hrest ▸ List.mem_cons_self) hc
          exact ⟨List.mem_cons_of_mem d hmem.1, hmem.2⟩
      · have hmem := ih (hrest ▸ List.mem_cons_of_mem rest h) hc
        exact ⟨List.mem_cons_of_mem d hmem.1, hmem.2⟩

end PodCache.Text
