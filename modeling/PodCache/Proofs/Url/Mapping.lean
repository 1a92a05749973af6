import Mathlib.Tactic
import PodCache.Proofs.Text.Composition
import PodCache.Proofs.Url.MappingTable

/-!
# Characters that a domain name keeps

What a character of a domain name is replaced by is kept (`isKept_of_mapChar?`), and a compound is
kept just as its parts are (`shared_isKept`).  So all characters of a normal form are kept.
-/

namespace PodCache.Url.Domain

open Text

variable {n : Nat} {c d : Char} {cs : List Char} {rows : List (Nat × List (List Char))}

/-! ## Which characters are replaced -/

theorem mem_letters {alphabet : Nat × Nat × Nat × Nat} (h : alphabet.1 ≤ alphabet.2.1) :
    n ∈ letters alphabet ↔
      alphabet.1 ≤ n ∧ n ≤ alphabet.2.1 ∧ (n - alphabet.1) % alphabet.2.2.1 = 0 := by
  obtain ⟨first, last, step, target⟩ := alphabet
  simp only [letters, List.mem_map, List.mem_range, Nat.lt_succ_iff]
  constructor
  · rintro ⟨i, hi, rfl⟩
    have hle : i * step ≤ last - first :=
      (Nat.mul_le_mul_right step hi).trans (Nat.div_mul_le_self _ _)
    refine ⟨Nat.le_add_right _ _, by dsimp only at h; omega, ?_⟩
    rw [Nat.add_sub_cancel_left, Nat.mul_mod_left]
  · rintro ⟨hge, hle, hmod⟩
    have hdiv := Nat.div_add_mod' (n - first) step
    exact ⟨(n - first) / step, Nat.div_le_div_right (by omega), by omega⟩

theorem mem_rowCodes {row : Nat × List (List Char)} :
    n ∈ rowCodes row ↔ ∃ i target, row.2[i]? = some target ∧ target ≠ [] ∧ n = row.1 + i := by
  simp only [rowCodes, List.mem_filterMap, Prod.exists, List.mem_zipIdx_iff_getElem?]
  rw [exists_comm]
  refine exists_congr fun i => exists_congr fun target => and_congr_right fun _ => ?_
  cases target <;> simp [eq_comm]

/-- A row that a code point lies in is found. -/
theorem find?_of_areApart {m : Nat} (h : areApart m rows = true) {row : Nat × List (List Char)}
    (hrow : row ∈ rows) (hge : row.1 ≤ n) (hlt : n < row.1 + row.2.length) :
    m ≤ row.1 ∧
      (rows.find? fun r => r.1 ≤ n && n < r.1 + r.2.length) = some row := by
  induction rows generalizing m with
  | nil => cases hrow
  | cons first rows ih =>
    simp only [areApart, Bool.and_eq_true, decide_eq_true_eq] at h
    rcases List.mem_cons.1 hrow with rfl | hrow
    · exact ⟨h.1, List.find?_cons_of_pos (by simp [hge, hlt])⟩
    · obtain ⟨hm, hfind⟩ := ih h.2 hrow
      refine ⟨by omega, ?_⟩
      rw [List.find?_cons_of_neg (by simp; omega)]
      exact hfind

/-! ## What the tables were checked for -/

/-- The bits of the code points beyond ASCII that are not kept. -/
def lost : Nat := lostBits replacements

/-- What the tables were checked for: characters that are not lost are replaced by such. -/
structure Closed : Prop where
  apart : areApart 0 replacements = true
  row : ∀ row ∈ replacements, ∀ target ∈ row.2, ∀ c ∈ target, keeps lost c = true
  alphabet : ∀ alphabet ∈ alphabets, keepsAlphabet lost alphabet = true
  parts : ∀ t ∈ compositions, keepsParts lost t = true
  korean : ∀ range ∈ koreanRanges, keepsRange lost range = true

theorem closed_tables : Closed := by
  have hclosed := isClosed_tables
  simp only [isClosed, Bool.and_eq_true, List.all_eq_true] at hclosed
  obtain ⟨⟨⟨⟨hapart, hrow⟩, halphabet⟩, hparts⟩, hkorean⟩ := hclosed
  exact ⟨hapart, hrow, halphabet, hparts, hkorean⟩

theorem keeps_of_korean {first last : Nat} (h : (first, last) ∈ koreanRanges)
    (hge : first ≤ c.toNat) (hle : c.toNat ≤ last) : keeps lost c = true := by
  have hzero : (lost >>> first) % 2 ^ (last + 1 - first) = 0 :=
    eq_of_beq (closed_tables.korean (first, last) h)
  have hascii : ∀ range ∈ koreanRanges, 128 ≤ range.1 := by decide
  have hlarge : 128 ≤ first := hascii _ h
  have hbit := congrArg (Nat.testBit · (c.toNat - first)) hzero
  simp only [Nat.testBit_mod_two_pow, Nat.testBit_shiftRight, Nat.zero_testBit] at hbit
  rw [Nat.add_sub_cancel' hge, decide_eq_true (by omega), Bool.true_and] at hbit
  rw [keeps, if_neg (by omega), hbit]
  rfl

theorem isSome_fromAlphabet? :
    (fromAlphabet? n).isSome = true ↔ n ∈ alphabets.flatMap letters := by
  rw [fromAlphabet?, Option.isSome_map, List.find?_isSome, List.mem_flatMap]
  refine exists_congr fun alphabet => and_congr_right fun h => ?_
  have hkeeps := closed_tables.alphabet _ h
  simp only [keepsAlphabet, Bool.and_eq_true, decide_eq_true_eq] at hkeeps
  rw [mem_letters hkeeps.1]
  simp [and_assoc]

theorem fromList?_eq_some_iff :
    fromList? n = some cs ↔ ∃ row ∈ replacements, ∃ i, row.2[i]? = some cs ∧ cs ≠ [] ∧
      n = row.1 + i := by
  constructor
  · intro h
    rw [fromList?] at h
    cases hfind : replacements.find? fun row => row.1 ≤ n && n < row.1 + row.2.length with
    | none =>
      simp only [hfind] at h
      cases h
    | some row =>
      simp only [hfind] at h
      have hrange := List.find?_some hfind
      simp only [Bool.and_eq_true, decide_eq_true_eq] at hrange
      obtain ⟨hget, hne⟩ := Option.filter_eq_some_iff.1 h
      exact ⟨row, List.mem_of_find?_eq_some hfind, _, hget, by simpa using hne, by omega⟩
  · rintro ⟨row, hrow, i, hi, hne, rfl⟩
    obtain ⟨hlt, -⟩ := List.getElem?_eq_some_iff.1 hi
    obtain ⟨-, hfind⟩ := find?_of_areApart closed_tables.apart hrow (Nat.le_add_right _ i)
      (Nat.add_lt_add_left hlt _)
    rw [fromList?]
    simp only [hfind]
    rw [Nat.add_sub_cancel_left, hi]
    simp [hne]

theorem isSome_fromList? :
    (fromList? n).isSome = true ↔ n ∈ replacements.flatMap rowCodes := by
  simp only [Option.isSome_iff_exists, fromList?_eq_some_iff, List.mem_flatMap, mem_rowCodes]
  constructor
  · rintro ⟨target, row, hrow, i, h⟩
    exact ⟨row, hrow, i, target, h⟩
  · rintro ⟨row, hrow, i, target, h⟩
    exact ⟨target, row, hrow, i, h⟩

theorem isSome_replacement? : (replacement? c).isSome = true ↔
    c.toNat ∈ alphabets.flatMap letters ++ replacements.flatMap rowCodes := by
  rw [List.mem_append, ← isSome_fromAlphabet?, ← isSome_fromList?, replacement?]
  cases fromAlphabet? c.toNat <;> simp

theorem testBit_forbiddenBits (c : Char) : forbiddenBits.testBit c.toNat = !isAllowed c := by
  have hjoiner : isJoiner c = decide (0x200C ≤ c.toNat ∧ c.toNat ≤ 0x200D) := by
    rw [Bool.eq_iff_iff, isJoiner]
    simp only [Bool.or_eq_true, beq_iff_eq, ← Char.toNat_inj, decide_eq_true_eq]
    have hfirst : '\u200C'.toNat = 0x200C := rfl
    have hsecond : '\u200D'.toNat = 0x200D := rfl
    omega
  have hkept : inRanges ((0x200C, 0x200D) :: additionalRanges) c =
      (isJoiner c || inRanges additionalRanges c) := by
    rw [inRanges, List.any_cons, ← inRanges, hjoiner]
    simp
  simp only [forbiddenBits, Nat.testBit_xor, Nat.testBit_and, Nat.testBit_or, testBit_rangeMask,
    hkept, isAllowed, isVisible]
  cases inRanges invisibleRanges c <;> cases inRanges refusedRanges c <;> cases isJoiner c <;>
    cases inRanges additionalRanges c <;> rfl

theorem testBit_lost (c : Char) :
    lost.testBit c.toNat =
      (inRanges ignoredRanges c || (replacement? c).isSome || !isAllowed c) := by
  have hreplaced : (mask (alphabets.flatMap letters ++ replacements.flatMap rowCodes)).testBit
      c.toNat = (replacement? c).isSome := by
    rw [Bool.eq_iff_iff, testBit_mask, isSome_replacement?]
  rw [lost, lostBits, Nat.testBit_or, Nat.testBit_or, testBit_rangeMask, testBit_forbiddenBits,
    hreplaced]

theorem keeps_of_replacement? (h : replacement? c = some cs) :
    ∀ d ∈ cs, keeps lost d = true := by
  rw [replacement?] at h
  cases halphabet : fromAlphabet? c.toNat with
  | some letter =>
    rw [halphabet] at h
    obtain rfl := Option.some.inj h
    rw [fromAlphabet?] at halphabet
    obtain ⟨alphabet, hfind, rfl⟩ := Option.map_eq_some_iff.1 halphabet
    have hkeeps := closed_tables.alphabet _ (List.mem_of_find?_eq_some hfind)
    simp only [keepsAlphabet, Bool.and_eq_true, decide_eq_true_eq, List.all_eq_true] at hkeeps
    have hrange := List.find?_some hfind
    simp only [Bool.and_eq_true, decide_eq_true_eq, beq_iff_eq] at hrange
    intro d hd
    rw [List.mem_singleton.1 hd]
    exact hkeeps.2 _ ((mem_letters hkeeps.1).2 ⟨hrange.1.1, hrange.1.2, hrange.2⟩)
  | none =>
    rw [halphabet] at h
    obtain ⟨row, hrow, i, hget, -, -⟩ := fromList?_eq_some_iff.1 h
    exact closed_tables.row row hrow _ (List.mem_of_getElem? hget)

theorem mapChar?_of_ascii (h : c.toNat < 128) : mapChar? c = some [c.toLower] := if_pos h

theorem mapChar?_of_ignored (h : ¬ c.toNat < 128) (hi : inRanges ignoredRanges c = true) :
    mapChar? c = some [] := by
  rw [mapChar?, if_neg h, if_pos hi]

theorem mapChar?_of_replacement? (h : ¬ c.toNat < 128) (hi : inRanges ignoredRanges c = false)
    (hr : replacement? c = some cs) : mapChar? c = some cs := by
  rw [mapChar?, if_neg h, if_neg (by simp [hi]), hr]

theorem mapChar?_of_none (h : ¬ c.toNat < 128) (hi : inRanges ignoredRanges c = false)
    (hr : replacement? c = none) : mapChar? c = if isAllowed c then some [c] else none := by
  rw [mapChar?, if_neg h, if_neg (by simp [hi]), hr]

theorem isKept_eq_keeps (c : Char) : isKept c = keeps lost c := by
  by_cases hascii : c.toNat < 128
  · rw [isKept, mapChar?_of_ascii hascii, keeps, if_pos hascii]
    simp
  · rw [keeps, if_neg hascii, testBit_lost, isKept]
    cases hignored : inRanges ignoredRanges c with
    | true =>
      rw [mapChar?_of_ignored hascii hignored]
      rfl
    | false =>
      cases hreplaced : replacement? c with
      | none =>
        rw [mapChar?_of_none hascii hignored hreplaced]
        cases isAllowed c <;> simp
      | some cs =>
        have hne : cs ≠ [c] := by
          rintro rfl
          have hkeeps := keeps_of_replacement? hreplaced c List.mem_cons_self
          rw [keeps, if_neg hascii, testBit_lost, hreplaced] at hkeeps
          simp at hkeeps
        rw [mapChar?_of_replacement? hascii hignored hreplaced]
        simp [hne]

theorem isKept_of_mapChar?_self (h : mapChar? c = some [c]) : isKept c = true := by
  rw [isKept, h]
  exact beq_self_eq_true _

theorem toLower_of_lt (h : c.toNat < 128) :
    c.toLower.toNat < 128 ∧ c.toLower.toLower = c.toLower := by
  have hall : ∀ n < 128, (Char.ofNat n).toLower.toNat < 128 ∧
      (Char.ofNat n).toLower.toLower = (Char.ofNat n).toLower := by decide
  simpa using hall c.toNat h

/-- What a character is replaced by is kept. -/
theorem isKept_of_mapChar? (h : mapChar? c = some cs) : ∀ d ∈ cs, isKept d = true := by
  by_cases hascii : c.toNat < 128
  · rw [mapChar?_of_ascii hascii] at h
    obtain rfl := Option.some.inj h
    obtain ⟨hlt, hlower⟩ := toLower_of_lt hascii
    intro d hd
    rw [List.mem_singleton.1 hd]
    exact isKept_of_mapChar?_self (by rw [mapChar?_of_ascii hlt, hlower])
  · cases hignored : inRanges ignoredRanges c with
    | true =>
      rw [mapChar?_of_ignored hascii hignored] at h
      obtain rfl := Option.some.inj h
      nofun
    | false =>
      cases hreplaced : replacement? c with
      | none =>
        have hself := mapChar?_of_none hascii hignored hreplaced
        rw [hself] at h
        split_ifs at h with hallowed
        obtain rfl := Option.some.inj h
        intro d hd
        rw [List.mem_singleton.1 hd]
        exact isKept_of_mapChar?_self (by rw [hself, if_pos hallowed])
      | some ds =>
        rw [mapChar?_of_replacement? hascii hignored hreplaced] at h
        obtain rfl := Option.some.inj h
        exact fun d hd => (isKept_eq_keeps d).trans (keeps_of_replacement? hreplaced d hd)

theorem keeps_of_charOfNat {first last : Nat} (h : (first, last) ∈ koreanRanges) (hge : first ≤ n)
    (hle : n ≤ last) : keeps lost (Char.ofNat n) = true := by
  have hvalid : ∀ range ∈ koreanRanges, range.2 < 0xD800 := by decide
  have htoNat : (Char.ofNat n).toNat = n :=
    Utf8.toNat_charOfNat (.inl (hle.trans_lt (hvalid _ h)))
  exact keeps_of_korean h (by rwa [htoNat]) (by rwa [htoNat])

theorem keeps_of_syllableParts? {a b : Char} (h : syllableParts? c = some (a, b)) :
    keeps lost c = true ∧ keeps lost a = true ∧ keeps lost b = true := by
  have hinitial : (0x1100, 0x1112) ∈ koreanRanges := by decide
  have hvowel : (0x1161, 0x1175) ∈ koreanRanges := by decide
  have hfinal : (0x11A8, 0x11C2) ∈ koreanRanges := by decide
  have hsyllable : (0xAC00, 0xD7A3) ∈ koreanRanges := by decide
  rw [syllableParts?] at h
  split_ifs at h with hrange
  dsimp only at h
  refine ⟨keeps_of_korean hsyllable hrange.1 hrange.2, ?_⟩
  split_ifs at h with hplace
  · obtain ⟨rfl, rfl⟩ := Prod.mk.inj (Option.some.inj h)
    exact ⟨keeps_of_charOfNat hinitial (by omega) (by omega),
      keeps_of_charOfNat hvowel (by omega) (by omega)⟩
  · obtain ⟨rfl, rfl⟩ := Prod.mk.inj (Option.some.inj h)
    exact ⟨keeps_of_charOfNat hsyllable (by omega) (by omega),
      keeps_of_charOfNat hfinal (by omega) (by omega)⟩

/-- A compound is kept just as its parts are. -/
theorem keeps_of_parts? {a b : Char} (h : parts? c = some (a, b)) :
    keeps lost c = (keeps lost a && keeps lost b) := by
  rcases parts?_cases h with hsyllable | ht
  · obtain ⟨hc, ha, hb⟩ := keeps_of_syllableParts? hsyllable
    rw [hc, ha, hb]
    rfl
  · exact eq_of_beq (closed_tables.parts _ ht)

theorem shared_isKept : Shared fun c => isKept c = true where
  parts h hc := by
    rw [isKept_eq_keeps, keeps_of_parts? h, Bool.and_eq_true] at hc
    rwa [isKept_eq_keeps, isKept_eq_keeps]
  compound h ha hb := by
    rw [isKept_eq_keeps] at ha hb ⊢
    rw [keeps_of_parts? (parts?_of_compound? h), ha, hb]
    rfl

end PodCache.Url.Domain
