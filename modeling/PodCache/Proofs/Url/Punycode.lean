import Mathlib.Tactic
import PodCache.Proofs.Lists
import PodCache.Proofs.Text.Split
import PodCache.Proofs.Text.Utf8
import PodCache.Url.Punycode

/-!
# Reading back Punycode

A label is what its Punycode stands for, to a reader for whom no number is too great
(`decode?_encode`).  Writing passes, for each code point in turn, the characters of the label;
reading inserts them one by one.  While a code point is passed, what has been read is the label
without the characters that come later (`Synced`).
-/

namespace PodCache.Url.Punycode

open Text

/-! ## Numbers -/

variable {limits : Limits} {r : Reading} {d n : Nat}

theorem next?_digit_of_lt (hnumber : limits.number = none)
    (hd : d < threshold r.position r.bias) :
    r.next? limits (digit d) = Reading.insert? { r with reached := r.reached + d * r.weight } := by
  have hbounds := threshold_bounds r.position r.bias
  rw [Reading.next?, digitValue?_digit (by omega)]
  simp [hnumber, hd]

theorem next?_digit_of_le (hnumber : limits.number = none) (hd : d < 36)
    (hle : threshold r.position r.bias ≤ d) :
    r.next? limits (digit d) = some { r with
      reached := r.reached + d * r.weight
      weight := r.weight * (36 - threshold r.position r.bias)
      position := r.position + 36 } := by
  rw [Reading.next?, digitValue?_digit hd]
  simp [hnumber, hle]

/-- The digits of a number are read as the number. -/
theorem foldlM_digits (hnumber : limits.number = none) :
    (digits r.bias r.position n).foldlM (Reading.next? limits) r =
      Reading.insert? { r with reached := r.reached + n * r.weight } := by
  induction n using Nat.strong_induction_on generalizing r with
  | _ n ih =>
    have hbounds := threshold_bounds r.position r.bias
    rw [digits]
    split_ifs with hlast
    · rw [List.foldlM_cons, next?_digit_of_lt hnumber hlast]
      exact bind_pure _
    · generalize ht : threshold r.position r.bias = t at *
      have hsplit : t + (n - t) % (36 - t) + (n - t) / (36 - t) * (36 - t) = n := by
        have hdiv := Nat.mod_add_div' (n - t) (36 - t)
        omega
      have hdigit : (n - t) % (36 - t) < 36 - t := Nat.mod_lt _ (by omega)
      have hsum : (t + (n - t) % (36 - t)) * r.weight +
          (n - t) / (36 - t) * (r.weight * (36 - t)) = n * r.weight := by
        rw [Nat.mul_comm r.weight, ← Nat.mul_assoc, ← Nat.add_mul, hsplit]
      have hless : (n - t) / (36 - t) < n :=
        (Nat.div_le_self _ _).trans_lt (by omega)
      rw [List.foldlM_cons, next?_digit_of_le hnumber (by omega) (by omega), ht,
        Option.bind_eq_bind, Option.bind_some]
      let next : Reading := { r with
        reached := r.reached + (t + (n - t) % (36 - t)) * r.weight
        weight := r.weight * (36 - t)
        position := r.position + 36 }
      have hreached : next.reached + (n - t) / (36 - t) * next.weight =
          r.reached + n * r.weight := by
        rw [← hsum, ← Nat.add_assoc]
      refine (ih _ hless (r := next)).trans ?_
      rw [hreached]
      rfl

/-! ## Insertions -/

variable {c : Char} {front back : List Char}

theorem insertIdx_append (c : Char) (front back : List Char) :
    (front ++ back).insertIdx front.length c = front ++ c :: back := by
  induction front with
  | nil => rfl
  | cons d front ih =>
    rw [List.cons_append, List.length_cons, List.insertIdx_succ_cons, ih]
    rfl

theorem insert?_eq (hlabel : r.label = front ++ back) (hpoint : r.point ≤ c.toNat)
    (hreached : r.reached = (c.toNat - r.point) * (r.label.length + 1) + front.length) :
    r.insert? = some {
      label := front ++ c :: back
      point := c.toNat
      start := front.length + 1
      bias := adapt (r.reached - r.start) (r.label.length + 1) (r.start == 0)
      reached := front.length + 1 } := by
  have hplace : front.length < r.label.length + 1 := by
    rw [hlabel, List.length_append]
    omega
  have hquotient : r.reached / (r.label.length + 1) = c.toNat - r.point := by
    rw [hreached, Nat.mul_comm, Nat.mul_add_div (by omega), Nat.div_eq_of_lt hplace, Nat.add_zero]
  have hremainder : r.reached % (r.label.length + 1) = front.length := by
    rw [hreached, Nat.mul_add_mod', Nat.mod_eq_of_lt hplace]
  have hsum : r.point + (c.toNat - r.point) = c.toNat := by omega
  have hvalid : c.toNat.isValidChar := c.valid
  rw [Reading.insert?, hquotient, hremainder, hsum, if_pos hvalid, hlabel, insertIdx_append,
    Char.ofNat_toNat]

variable {point basic : Nat} {pre suf label : List Char} {p : Progress}

/-- What has been read is what has been written, when the characters of a code point are inserted as
far as `pre`. -/
structure Synced (basic point : Nat) (pre suf : List Char) (p : Progress) (r : Reading) : Prop where
  label : r.label = pre.filter (·.toNat ≤ point) ++ suf.filter (·.toNat < point)
  position : r.position = 36
  weight : r.weight = 1
  bias : r.bias = p.bias
  start : r.reached = r.start
  placed : p.placed = r.label.length
  basic_le : basic ≤ p.placed
  first : (p.placed == basic) = (r.start == 0)
  point_le : r.point ≤ point
  /-- The insertion states from the last insertion to the one that is reached. -/
  count : r.start + p.delta =
    (point - r.point) * (r.label.length + 1) + (pre.filter (·.toNat ≤ point)).length

/-- Reading what is written from `p` to `p'` leads from `r` to `r'`. -/
def Reads (limits : Limits) (p p' : Progress) (r r' : Reading) : Prop :=
  ∃ out, p'.written = p.written ++ out ∧ out.foldlM (Reading.next? limits) r = some r'

theorem Reads.of_written {p p' : Progress} (h : p'.written = p.written) (r : Reading) :
    Reads limits p p' r r :=
  ⟨[], by rw [h, List.append_nil], rfl⟩

theorem Reads.trans {p p' p'' : Progress} {r r' r'' : Reading} (h : Reads limits p p' r r')
    (h' : Reads limits p' p'' r' r'') : Reads limits p p'' r r'' := by
  obtain ⟨out, hout, hread⟩ := h
  obtain ⟨out', hout', hread'⟩ := h'
  refine ⟨out ++ out', by rw [hout', hout, List.append_assoc], ?_⟩
  rw [List.foldlM_append, hread]
  exact hread'

theorem Synced.read (h : Synced basic point pre suf p r) (hnumber : limits.number = none) :
    (digits p.bias 36 p.delta).foldlM (Reading.next? limits) r =
      Reading.insert? { r with reached := r.start + p.delta } := by
  have hread := foldlM_digits (r := r) (n := p.delta) hnumber
  rwa [h.bias, h.position, h.weight, Nat.mul_one, h.start] at hread

theorem filter_concat_of_le (h : c.toNat ≤ point) (pre : List Char) :
    (pre ++ [c]).filter (·.toNat ≤ point) = pre.filter (·.toNat ≤ point) ++ [c] := by
  rw [List.filter_append, List.filter_cons_of_pos (by simpa using h), List.filter_nil]

/-- A character of the code point is inserted. -/
theorem Synced.insert (h : Synced basic c.toNat pre (c :: suf) p r)
    (hnumber : limits.number = none) :
    ∃ r', (digits p.bias 36 p.delta).foldlM (Reading.next? limits) r = some r' ∧
      Synced basic c.toNat (pre ++ [c]) suf {
        written := p.written ++ digits p.bias 36 p.delta
        delta := 0
        bias := adapt p.delta (p.placed + 1) (p.placed == basic)
        placed := p.placed + 1 } r' := by
  have hlabel : r.label = pre.filter (·.toNat ≤ c.toNat) ++ suf.filter (·.toNat < c.toNat) := by
    rw [h.label, List.filter_cons_of_neg (by simp)]
  have hread := h.read hnumber
  have hinsert := insert?_eq (r := { r with reached := r.start + p.delta }) hlabel h.point_le
    h.count
  have hpre := filter_concat_of_le (le_refl c.toNat) pre
  have hplaced : p.placed =
      (pre.filter (·.toNat ≤ c.toNat) ++ suf.filter (·.toNat < c.toNat)).length :=
    hlabel ▸ h.placed
  refine ⟨_, hread.trans hinsert, ?_⟩
  exact {
    label := by rw [hpre, List.append_assoc]; rfl
    position := rfl
    weight := rfl
    bias := by
      dsimp only
      rw [Nat.add_sub_cancel_left, ← h.placed, h.first]
    start := rfl
    placed := by
      dsimp only
      rw [hplaced]
      simp only [List.length_append, List.length_cons]
      omega
    basic_le := h.basic_le.trans (Nat.le_succ _)
    first := by
      have hbasic := h.basic_le
      have hne : (p.placed + 1 == basic) = false := by simp; omega
      exact hne
    point_le := le_rfl
    count := by
      dsimp only
      rw [hpre, Nat.sub_self, Nat.zero_mul, List.length_append]
      simp }

theorem Synced.visit (h : Synced basic point pre (c :: suf) p r)
    (hnumber : limits.number = none) :
    ∃ r', Reads limits p (visit basic point p c) r r' ∧
      Synced basic point (pre ++ [c]) suf (visit basic point p c) r' := by
  unfold Punycode.visit
  split_ifs with hlt heq
  · have hpre := filter_concat_of_le hlt.le pre
    have hsuf : (c :: suf).filter (·.toNat < point) = c :: suf.filter (·.toNat < point) :=
      List.filter_cons_of_pos (by simpa using hlt)
    refine ⟨r, .of_written rfl r, { h with label := ?_, count := ?_ }⟩
    · rw [h.label, hpre, hsuf, List.append_assoc, List.singleton_append]
    · have hcount := h.count
      rw [hpre, List.length_append, List.length_singleton]
      dsimp only
      omega
  · subst heq
    obtain ⟨r', hread, hsynced⟩ := h.insert hnumber
    exact ⟨r', ⟨_, rfl, hread⟩, hsynced⟩
  · have hpre : (pre ++ [c]).filter (·.toNat ≤ point) = pre.filter (·.toNat ≤ point) := by
      rw [List.filter_append, List.filter_cons_of_neg (by simp; omega), List.filter_nil,
        List.append_nil]
    have hsuf : (c :: suf).filter (·.toNat < point) = suf.filter (·.toNat < point) :=
      List.filter_cons_of_neg (by simpa using hlt)
    exact ⟨r, .of_written rfl r,
      { h with label := hpre ▸ hsuf ▸ h.label, count := hpre ▸ h.count }⟩

theorem Synced.pass (h : Synced basic point pre suf p r)
    (hnumber : limits.number = none) :
    ∃ r', Reads limits p (suf.foldl (Punycode.visit basic point) p) r r' ∧
      Synced basic point (pre ++ suf) [] (suf.foldl (Punycode.visit basic point) p) r' := by
  induction suf generalizing pre p r with
  | nil => exact ⟨r, .of_written rfl r, by simpa using h⟩
  | cons c suf ih =>
    obtain ⟨r₁, hread₁, h₁⟩ := h.visit hnumber
    obtain ⟨r₂, hread₂, h₂⟩ := ih h₁
    rw [List.append_assoc] at h₂
    exact ⟨r₂, hread₁.trans hread₂, h₂⟩

/-- The count goes on to a code point that nothing in the label precedes. -/
theorem Synced.advance {reached : Nat} (h : Synced basic reached [] label p r)
    (hle : reached ≤ point) (hnone : ∀ c ∈ label, c.toNat < point → c.toNat < reached) :
    Synced basic point [] label
      { p with delta := p.delta + (point - reached) * (p.placed + 1) } r := by
  refine { h with label := ?_, point_le := h.point_le.trans hle, count := ?_ }
  · rw [h.label, List.filter_nil, List.filter_nil, List.filter_congr]
    intro c hc
    have hiff : c.toNat < reached ↔ c.toNat < point := ⟨fun h => by omega, hnone c hc⟩
    simp [hiff]
  · have hcount := h.count
    have hsplit : point - r.point = (reached - r.point) + (point - reached) := by
      have hpoint := h.point_le
      omega
    rw [hsplit, Nat.add_mul, ← h.placed] at *
    dsimp only
    simp only [List.filter_nil, List.length_nil] at hcount ⊢
    omega

/-- A code point whose characters are all in place is passed. -/
theorem Synced.next (h : Synced basic point label [] p r) :
    Synced basic (point + 1) [] label { p with delta := p.delta + 1 } r := by
  have hlabel : r.label = label.filter (·.toNat ≤ point) := by
    rw [h.label, List.filter_nil, List.append_nil]
  refine { h with label := ?_, point_le := h.point_le.trans (Nat.le_succ _), count := ?_ }
  · rw [hlabel, List.filter_nil, List.nil_append]
    simp only [Nat.lt_succ_iff]
  · have hcount := h.count
    have hpoint := h.point_le
    rw [← hlabel] at hcount
    rw [Nat.succ_sub hpoint, Nat.succ_mul]
    dsimp only
    simp only [List.filter_nil, List.length_nil]
    omega

/-- The code points are passed in turn, and in the end the whole label is in place. -/
theorem Synced.insertAll {points : List Nat} {reached : Nat}
    (h : Synced basic reached [] label p r) (hnumber : limits.number = none)
    (hsorted : points.Pairwise (· < ·)) (hge : ∀ n ∈ points, reached ≤ n)
    (hall : ∀ c ∈ label, reached ≤ c.toNat → c.toNat ∈ points) :
    ∃ r', Reads limits p (insertAll label basic points reached p) r r' ∧
      r'.position = 36 ∧ r'.label = label := by
  induction points generalizing reached p r with
  | nil =>
    refine ⟨r, .of_written rfl r, h.position, ?_⟩
    rw [h.label, List.filter_nil, List.nil_append, List.filter_eq_self]
    intro c hc
    have hlt : ¬ reached ≤ c.toNat := fun hle => absurd (hall c hc hle) List.not_mem_nil
    simpa using hlt
  | cons point points ih =>
    obtain ⟨hleast, hsorted⟩ := List.pairwise_cons.1 hsorted
    -- Nothing in the label lies between the code points, so the count alone moves on to `point`.
    have hadvance := h.advance (hge point List.mem_cons_self) fun c hc hlt => by
      by_contra hle
      rcases List.mem_cons.1 (hall c hc (by omega)) with heq | hmem
      · omega
      · have hless := hleast _ hmem
        omega
    obtain ⟨r₁, hread₁, h₁⟩ := hadvance.pass hnumber
    obtain ⟨r₂, hread₂, hend⟩ := ih (Synced.next (by simpa using h₁)) hsorted
      (fun n hn => hleast n hn) fun c hc hle => by
        rcases List.mem_cons.1 (hall c hc ((hge point List.mem_cons_self).trans (by omega)))
          with heq | hmem
        · omega
        · exact hmem
    exact ⟨r₂, hread₁.trans hread₂, hend⟩

/-! ## Whole labels -/

/-- Nothing but digits. -/
def AllDigits (cs : List Char) : Prop := ∀ c ∈ cs, ∃ d < 36, c = digit d

theorem allDigits_digits (bias position n : Nat) : AllDigits (digits bias position n) := by
  induction position, n using digits.induct bias with
  | case1 position n t h =>
    have hbounds := threshold_bounds position bias
    rw [digits, if_pos h]
    intro c hc
    exact ⟨n, by omega, List.mem_singleton.1 hc⟩
  | case2 position n t h ih =>
    have hbounds := threshold_bounds position bias
    have hdigit : (n - t) % (36 - t) < 36 - t := Nat.mod_lt _ (by omega)
    rw [digits, if_neg h]
    intro c hc
    rcases List.mem_cons.1 hc with rfl | hc
    · exact ⟨t + (n - t) % (36 - t), by omega, rfl⟩
    · exact ih c hc

theorem allDigits_visit (h : AllDigits p.written) (c : Char) :
    AllDigits (visit basic point p c).written := by
  unfold visit
  split_ifs
  · exact h
  · intro d hd
    exact (List.mem_append.1 hd).elim (h d) (allDigits_digits _ _ _ d)
  · exact h

theorem allDigits_foldl (h : AllDigits p.written) (cs : List Char) :
    AllDigits (cs.foldl (visit basic point) p).written := by
  induction cs generalizing p with
  | nil => exact h
  | cons c cs ih => exact ih (allDigits_visit h c)

theorem allDigits_insertAll {points : List Nat} {reached : Nat} (h : AllDigits p.written) :
    AllDigits (insertAll label basic points reached p).written := by
  induction points generalizing reached p with
  | nil => exact h
  | cons point points ih =>
    refine ih ?_
    apply allDigits_foldl
    exact h

/-- The code points of the characters beyond ASCII, in ascending order. -/
def codePoints (label : List Char) : List Nat :=
  ((label.map Char.toNat).filter (128 ≤ ·)).eraseDups.mergeSort

theorem mem_codePoints : n ∈ codePoints label ↔ (∃ c ∈ label, c.toNat = n) ∧ 128 ≤ n := by
  simp [codePoints]

theorem sorted_codePoints (label : List Char) : (codePoints label).Pairwise (· < ·) := by
  have hnodup : (codePoints label).Nodup :=
    (List.mergeSort_perm _ _).nodup_iff.2 (nodup_eraseDups _)
  have hsorted : (codePoints label).Pairwise (· ≤ ·) := List.pairwise_mergeSort' (· ≤ ·) _
  exact (hsorted.and hnodup).imp fun h => lt_of_le_of_ne h.1 h.2

theorem cut_append {basicText written : List Char} (h : AllDigits written) :
    cut (basicText ++ (if basicText.isEmpty then [] else ['-']) ++ written) =
      (basicText, written) := by
  have hhyphen : '-' ∉ written := by
    have hall : ∀ d < 36, '-' ≠ digit d := by decide
    intro hmem
    obtain ⟨d, hd, heq⟩ := h _ hmem
    exact hall d hd heq
  cases basicText with
  | nil =>
    rw [cut, List.nil_append, List.isEmpty_nil, if_pos rfl, List.nil_append,
      cutLast_of_not_mem hhyphen]
  | cons c cs =>
    rw [List.isEmpty_cons, if_neg Bool.false_ne_true, List.append_assoc, List.singleton_append,
      cut, cutLast_append _ hhyphen]

theorem unlimited_number : ({} : Limits).number = none := rfl

/-- The Punycode of a label: the ASCII characters, and digits that are read as the others. -/
theorem exists_written (hnumber : limits.number = none) (label : List Char) :
    ∃ written r, encode label = label.filter (·.toNat < 128) ++
        (if (label.filter (·.toNat < 128)).isEmpty then [] else ['-']) ++ written ∧
      AllDigits written ∧
      written.foldlM (Reading.next? limits) { label := label.filter (·.toNat < 128) } = some r ∧
      r.position = 36 ∧ r.label = label := by
  have hsynced : Synced (label.filter (·.toNat < 128)).length 128 [] label
      ⟨[], 0, 72, (label.filter (·.toNat < 128)).length⟩
      { label := label.filter (·.toNat < 128) } := {
    label := rfl
    position := rfl
    weight := rfl
    bias := rfl
    start := rfl
    placed := rfl
    basic_le := le_rfl
    first := by simp
    point_le := le_rfl
    count := by simp }
  obtain ⟨r, ⟨written, hwritten, hread⟩, hposition, hlabel⟩ :=
    hsynced.insertAll hnumber (sorted_codePoints label) (fun n hn => (mem_codePoints.1 hn).2)
      fun c hc hle => mem_codePoints.2 ⟨⟨c, hc, rfl⟩, hle⟩
  rw [List.nil_append] at hwritten
  refine ⟨written, r, ?_, ?_, hread, hposition, hlabel⟩
  · rw [← hwritten]
    rfl
  · rw [← hwritten]
    exact allDigits_insertAll nofun

/-- A label is what its Punycode stands for. -/
theorem decode?_encode (hnumber : limits.number = none)
    (hlower : ∀ c ∈ label, c.toNat < 128 → c.toLower = c) :
    decode? limits (encode label) = some label := by
  obtain ⟨written, r, hencode, hdigits, hread, hposition, hlabel⟩ := exists_written hnumber label
  have hascii : (label.filter (·.toNat < 128)).any (128 ≤ ·.toNat) = false := by
    rw [List.any_eq_false]
    intro c hc
    simpa using (List.mem_filter.1 hc).2
  have hmap : (label.filter (·.toNat < 128)).map Char.toLower = label.filter (·.toNat < 128) := by
    refine (List.map_congr_left fun c hc => ?_).trans (List.map_id _)
    obtain ⟨hmem, hlt⟩ := List.mem_filter.1 hc
    exact hlower c hmem (by simpa using hlt)
  rw [hencode, decode?, cut_append hdigits]
  simp only [hascii, Bool.false_eq_true, if_false, hmap, hread, Option.bind_eq_bind,
    Option.bind_some, if_pos hposition, hlabel]

theorem mem_encode (hc : c ∈ encode label) :
    c ∈ label ∧ c.toNat < 128 ∨ c = '-' ∨ ∃ d < 36, c = digit d := by
  obtain ⟨written, r, hencode, hdigits, -⟩ := exists_written unlimited_number label
  rw [hencode, List.mem_append, List.mem_append] at hc
  rcases hc with (hc | hc) | hc
  · exact .inl (by simpa using List.mem_filter.1 hc)
  · split_ifs at hc
    · cases hc
    · exact .inr (.inl (List.mem_singleton.1 hc))
  · exact .inr (.inr (hdigits c hc))

/-- The Punycode of a label beyond ASCII ends with a digit. -/
theorem getLast?_encode (hc : c ∈ label) (hge : 128 ≤ c.toNat) :
    ∃ d < 36, (encode label).getLast? = some (digit d) := by
  obtain ⟨written, r, hencode, hdigits, hread, -, hlabel⟩ := exists_written unlimited_number label
  have hne : written ≠ [] := by
    rintro rfl
    obtain rfl := Option.some.inj hread
    rw [← hlabel] at hc
    have hlt := (List.mem_filter.1 hc).2
    simp at hlt
    omega
  have hlast := List.getLast?_eq_some_getLast hne
  obtain ⟨d, hd, heq⟩ := hdigits _ (List.mem_of_getLast? hlast)
  exact ⟨d, hd, by rw [hencode, List.getLast?_append_of_ne_nil _ hne, hlast, heq]⟩

/-! ## What is read -/

/-- An insertion adds one character, and the code points only grow. -/
theorem of_insert? {r' : Reading} (h : r.insert? = some r') :
    r'.position = 36 ∧ ∃ c, r.point ≤ c.toNat ∧ c.toNat = r'.point ∧
      c ∈ r'.label ∧ ∀ d ∈ r'.label, d = c ∨ d ∈ r.label := by
  rw [Reading.insert?] at h
  split_ifs at h with hvalid
  obtain rfl := Option.some.inj h
  have hplace : r.reached % (r.label.length + 1) ≤ r.label.length :=
    Nat.lt_succ_iff.1 (Nat.mod_lt _ (Nat.succ_pos _))
  have hpoint : (Char.ofNat (r.point + r.reached / (r.label.length + 1))).toNat =
      r.point + r.reached / (r.label.length + 1) := Utf8.toNat_charOfNat hvalid
  refine ⟨rfl, _, ?_, hpoint, (List.mem_insertIdx hplace).2 (.inl rfl),
    fun d hd => (List.mem_insertIdx hplace).1 hd⟩
  rw [hpoint]
  exact Nat.le_add_right _ _

/-- A digit ends its number with an insertion or goes on with it. -/
theorem of_next? {r' : Reading} (h : r.next? limits c = some r') :
    (∃ reached, Reading.insert? { r with reached } = some r') ∨
      r'.label = r.label ∧ r'.point = r.point ∧ r'.position = r.position + 36 := by
  rw [Reading.next?] at h
  obtain ⟨d, -, h⟩ := Option.bind_eq_some_iff.1 h
  dsimp only at h
  split_ifs at h
  · exact .inl ⟨_, h⟩
  · obtain rfl := Option.some.inj h
    exact .inr ⟨rfl, rfl, rfl⟩

/-- What reading adds to some characters is beyond ASCII. -/
structure Adds (basicText : List Char) (r : Reading) : Prop where
  label : ∀ c ∈ r.label, c ∈ basicText ∨ 128 ≤ c.toNat
  point : 128 ≤ r.point
  position : 36 ≤ r.position

variable {basicText cs : List Char} {r' : Reading}

theorem Adds.next? (h : Adds basicText r) (hread : r.next? limits c = some r') :
    Adds basicText r' ∧ (r'.position = 36 → ∃ d ∈ r'.label, 128 ≤ d.toNat) := by
  have hpoint := h.point
  rcases of_next? hread with ⟨reached, hinsert⟩ | ⟨hlabel, heq, hposition⟩
  · obtain ⟨hposition, d, hge, hd, hmem, hlabel⟩ := of_insert? hinsert
    dsimp only at hge hlabel
    refine ⟨⟨fun e he => ?_, by omega, hposition.ge⟩, fun _ => ⟨d, hmem, by omega⟩⟩
    rcases hlabel e he with rfl | he
    · exact .inr (by omega)
    · exact h.label e he
  · have hstart := h.position
    exact ⟨⟨hlabel ▸ h.label, heq ▸ h.point, by omega⟩, by omega⟩

theorem Adds.foldlM (h : Adds basicText r) (hread : cs.foldlM (Reading.next? limits) r = some r') :
    Adds basicText r' ∧ (cs ≠ [] → r'.position = 36 → ∃ d ∈ r'.label, 128 ≤ d.toNat) := by
  induction cs generalizing r with
  | nil =>
    obtain rfl := Option.some.inj hread
    exact ⟨h, fun hne => absurd rfl hne⟩
  | cons c cs ih =>
    rw [List.foldlM_cons] at hread
    obtain ⟨r₁, hfirst, hread⟩ := Option.bind_eq_some_iff.1 hread
    obtain ⟨h₁, hbeyond⟩ := h.next? hfirst
    obtain ⟨h', hbeyond'⟩ := ih h₁ hread
    refine ⟨h', fun _ hposition => ?_⟩
    rcases eq_or_ne cs [] with rfl | hne
    · obtain rfl := Option.some.inj hread
      exact hbeyond hposition
    · exact hbeyond' hne hposition

theorem mem_of_mem_cut {code : List Char} (h : c ∈ (cut code).1) : c ∈ code := by
  rw [cut] at h
  rcases cutLast_cases '-' code with hnone | ⟨before, after, hsome, rfl⟩
  · rw [hnone] at h
    cases h
  · rw [hsome] at h
    cases before with
    | nil => cases h
    | cons first before => exact List.mem_append_left _ h

theorem cut_ne_nil {code : List Char} (hne : code ≠ []) (hlast : code.getLast? ≠ some '-') :
    (cut code).2 ≠ [] := by
  rw [cut]
  rcases cutLast_cases '-' code with hnone | ⟨before, after, hsome, rfl⟩
  · rw [hnone]
    exact hne
  · rw [hsome]
    cases before with
    | nil => exact hne
    | cons first before =>
      rintro rfl
      exact hlast List.getLast?_concat

/-- A label has the ASCII characters of its Punycode, in small letters, and others beyond ASCII. -/
theorem adds_of_decode? {code : List Char} (h : decode? limits code = some label) :
    (∀ c ∈ (cut code).1, c.toNat < 128) ∧
      (∀ c ∈ label, c ∈ (cut code).1.map Char.toLower ∨ 128 ≤ c.toNat) ∧
      ((cut code).2 ≠ [] → ∃ c ∈ label, 128 ≤ c.toNat) := by
  rw [decode?] at h
  dsimp only at h
  split_ifs at h with hbeyond
  · cases h
  obtain ⟨r, hread, h⟩ := Option.bind_eq_some_iff.1 h
  split_ifs at h with hposition
  obtain rfl := Option.some.inj h
  obtain ⟨hadds, hinserts⟩ := Adds.foldlM ⟨fun c hc => .inl hc, le_rfl, le_rfl⟩ hread
  refine ⟨fun c hc => ?_, hadds.label, fun hne => hinserts hne hposition⟩
  by_contra hge
  exact hbeyond (List.any_eq_true.2 ⟨c, hc, by simpa using hge⟩)

theorem mem_of_decode? {code : List Char} (h : decode? limits code = some label) (hc : c ∈ label) :
    (∃ d ∈ code, d.toNat < 128 ∧ c = d.toLower) ∨ 128 ≤ c.toNat := by
  obtain ⟨hascii, hlabel, -⟩ := adds_of_decode? h
  refine (hlabel c hc).imp_left fun hmem => ?_
  obtain ⟨d, hd, rfl⟩ := List.mem_map.1 hmem
  exact ⟨d, mem_of_mem_cut hd, hascii d hd, rfl⟩

theorem exists_of_decode? {code : List Char} (h : decode? limits code = some label)
    (hne : code ≠ []) (hlast : code.getLast? ≠ some '-') : ∃ c ∈ label, 128 ≤ c.toNat :=
  (adds_of_decode? h).2.2 (cut_ne_nil hne hlast)

end PodCache.Url.Punycode
