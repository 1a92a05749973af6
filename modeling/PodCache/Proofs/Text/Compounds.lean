import Mathlib.Tactic
import PodCache.Proofs.Text.Table
import PodCache.Proofs.Text.Utf8
import PodCache.Text.Composition

/-!
# Compounds and their parts

Parts that make up a compound are the parts of it (`parts?_of_compound?`), and taking apart comes to
an end within three levels (`within_three`).  For Korean syllables this is arithmetic; the table is
checked as a whole (`isSound_compositions`).
-/

namespace PodCache.Text

variable {a b c d : Char} {k n : Nat} {t : Char × Char × Char}

/-! ## The table -/

/-- Whether a character is a Korean syllable or a letter that makes one up. -/
def isKorean (c : Char) : Bool :=
  (0x1100 ≤ c.toNat && c.toNat ≤ 0x11FF) || (0xAC00 ≤ c.toNat && c.toNat ≤ 0xD7A3)

/-- The bits of the compounds whose bases are no compounds or among the given ones. -/
def nextLevel (ts : List (Char × Char × Char)) (all shallow : Nat) : Nat :=
  mask ((ts.filter fun t => !all.testBit t.1.toNat || shallow.testBit t.1.toNat).map (·.2.2.toNat))

/-- Whether an entry of the table is in order, given the bits of all compounds and of those that are
taken apart within two levels. -/
def isEntry (all shallow : Nat) (t : Char × Char × Char) : Bool :=
  (0xC0 ≤ t.2.2.toNat && !isKorean t.2.2) &&
  (!all.testBit t.2.1.toNat && !isKorean t.2.1 && 0x300 ≤ t.2.1.toNat) &&
  ((!all.testBit t.1.toNat || shallow.testBit t.1.toNat) && !isKorean t.1 && t.1 != '.')

/-- Whether the entries of a table have different compounds and are in order. -/
def isSound (ts : List (Char × Char × Char)) : Bool :=
  let all := mask (ts.map (·.2.2.toNat))
  distinct (ts.map (·.2.2.toNat)) 0 &&
    ts.all (isEntry all (nextLevel ts all (nextLevel ts all 0)))

theorem compositions_eq {lists : List (List Char)}
    (h : compositionRows = lists.map String.ofList) :
    compositions = (lists.map words).flatMap rowCompounds := by
  rw [← map_readRow h, List.flatMap_map]
  rfl

set_option maxRecDepth 10000 in
theorem lists_compositions : Lists compositionRows fun lists =>
    isSound ((lists.map words).flatMap rowCompounds) = true := by
  unfold compositionRows
  repeat refine lists_eight ?_
  repeat refine lists_cons ?_
  exact lists_nil (by decide +kernel)

theorem isSound_compositions : isSound compositions = true := by
  obtain ⟨lists, hrows, hsound⟩ := lists_compositions
  rw [compositions_eq hrows]
  exact hsound

/-- The bits of the compounds of the table. -/
def compounds : Nat := mask (compositions.map (·.2.2.toNat))

/-- The bits of the compounds that are taken apart within a number of levels. -/
def shallow : Nat → Nat
  | 0 => 0
  | k + 1 => nextLevel compositions compounds (shallow k)

theorem testBit_compounds : compounds.testBit c.toNat = true ↔ ∃ t ∈ compositions, t.2.2 = c := by
  rw [compounds, testBit_mask, List.mem_map]
  simp only [Char.toNat_inj]

theorem testBit_shallow : (shallow (k + 1)).testBit c.toNat = true ↔
    ∃ t ∈ compositions, t.2.2 = c ∧
      (compounds.testBit t.1.toNat = true → (shallow k).testBit t.1.toNat = true) := by
  rw [shallow, nextLevel, testBit_mask, List.mem_map]
  simp only [List.mem_filter, Char.toNat_inj, and_right_comm, and_assoc]
  refine exists_congr fun t => and_congr_right fun _ => and_congr_right fun _ => ?_
  cases compounds.testBit t.1.toNat <;> simp

/-- An entry of the table: a compound beyond Latin-1's signs, its base and its mark. -/
structure Entry (t : Char × Char × Char) : Prop where
  compound_ge : 0xC0 ≤ t.2.2.toNat
  compound_foreign : isKorean t.2.2 = false
  mark_ge : 0x300 ≤ t.2.1.toNat
  mark_foreign : isKorean t.2.1 = false
  mark_single : compounds.testBit t.2.1.toNat = false
  base_ne_stop : t.1 ≠ '.'
  base_foreign : isKorean t.1 = false
  base_shallow : compounds.testBit t.1.toNat = true → (shallow 2).testBit t.1.toNat = true

theorem entry_of_mem (ht : t ∈ compositions) : Entry t := by
  have hsound := isSound_compositions
  simp only [isSound, Bool.and_eq_true, List.all_eq_true] at hsound
  have hentry : isEntry compounds (shallow 2) t = true := hsound.2 t ht
  simp only [isEntry, Bool.and_eq_true, Bool.or_eq_true, Bool.not_eq_true', decide_eq_true_eq,
    bne_iff_ne] at hentry
  obtain ⟨⟨hcompound, ⟨hmark, hmarkForeign⟩, hmarkGe⟩, ⟨hbase, hbaseForeign⟩, hstop⟩ := hentry
  refine ⟨hcompound.1, hcompound.2, hmarkGe, hmarkForeign, hmark, hstop, hbaseForeign, ?_⟩
  intro hbit
  exact hbase.resolve_left (by simp [hbit])

theorem eq_of_mem {t t' : Char × Char × Char} (ht : t ∈ compositions) (ht' : t' ∈ compositions)
    (h : t.2.2 = t'.2.2) : t = t' := by
  have hsound := isSound_compositions
  simp only [isSound, Bool.and_eq_true, distinct_iff] at hsound
  exact List.inj_on_of_nodup_map hsound.1.1 ht ht' (congrArg Char.toNat h)

/-! ## Parts of a compound -/

theorem syllableParts?_of_not_korean (h : isKorean c = false) : syllableParts? c = none := by
  rw [syllableParts?]
  refine if_neg fun hrange => ?_
  simp [isKorean] at h
  omega

theorem parts?_of_mem (ht : t ∈ compositions) : parts? t.2.2 = some (t.1, t.2.1) := by
  have hentry := entry_of_mem ht
  have hge := hentry.compound_ge
  have hfind : compositions.find? (·.2.2 == t.2.2) = some t := by
    cases hfind : compositions.find? (·.2.2 == t.2.2) with
    | none => exact absurd (List.find?_eq_none.1 hfind t ht) (by simp)
    | some t' =>
      rw [eq_of_mem (List.mem_of_find?_eq_some hfind) ht (by simpa using List.find?_some hfind)]
  rw [parts?, if_neg (by omega), syllableParts?_of_not_korean hentry.compound_foreign]
  dsimp only
  rw [hfind]
  rfl

theorem parts?_cases (h : parts? c = some (a, b)) :
    syllableParts? c = some (a, b) ∨ (a, b, c) ∈ compositions := by
  rw [parts?] at h
  split_ifs at h
  cases hsyllable : syllableParts? c with
  | some parts =>
    rw [hsyllable] at h
    exact .inl h
  | none =>
    rw [hsyllable] at h
    obtain ⟨t, hfind, hparts⟩ := Option.map_eq_some_iff.1 h
    obtain ⟨rfl, rfl⟩ := Prod.mk.inj hparts
    have hcompound : t.2.2 = c := by simpa using List.find?_some hfind
    exact .inr (hcompound ▸ List.mem_of_find?_eq_some hfind)

theorem charOfNat_eq (h : n = c.toNat) : Char.ofNat n = c := h ▸ Char.ofNat_toNat c

theorem syllableParts?_of_syllable? (h : syllable? a b = some c) :
    syllableParts? c = some (a, b) := by
  rw [syllable?] at h
  split_ifs at h with hletters hfinal
  · obtain rfl := Option.some.inj h
    rw [syllableParts?, Utf8.toNat_charOfNat (by left; omega)]
    dsimp only
    rw [if_pos (by omega), if_pos (by omega)]
    refine congrArg some (Prod.ext (charOfNat_eq ?_) (charOfNat_eq ?_)) <;> dsimp only <;> omega
  · obtain rfl := Option.some.inj h
    rw [syllableParts?, Utf8.toNat_charOfNat (by left; omega)]
    have hplace : (a.toNat + (b.toNat - 0x11A7) - 0xAC00) % 28 = b.toNat - 0x11A7 := by omega
    have hmark : 0x11A7 + (b.toNat - 0x11A7) = b.toNat := by omega
    rw [if_pos (by omega)]
    dsimp only
    rw [hplace, if_neg (by omega), Nat.add_sub_cancel, hmark, Char.ofNat_toNat, Char.ofNat_toNat]

theorem parts?_of_syllableParts? {parts : Char × Char} (h : syllableParts? c = some parts) :
    parts? c = some parts := by
  have hge : ¬ c.toNat < 0xC0 := by
    intro hlt
    rw [syllableParts?, if_neg (by omega)] at h
    cases h
  rw [parts?, if_neg hge, h]

/-- Parts that make up a compound are the parts of it. -/
theorem parts?_of_compound? (h : compound? a b = some c) : parts? c = some (a, b) := by
  rw [compound?] at h
  split_ifs at h
  cases hsyllable : syllable? a b with
  | some compound =>
    rw [hsyllable] at h
    obtain rfl := Option.some.inj h
    exact parts?_of_syllableParts? (syllableParts?_of_syllable? hsyllable)
  | none =>
    rw [hsyllable] at h
    obtain ⟨t, hfind, rfl⟩ := Option.map_eq_some_iff.1 h
    have hpair : t.1 = a ∧ t.2.1 = b := by simpa using List.find?_some hfind
    rw [parts?_of_mem (List.mem_of_find?_eq_some hfind), hpair.1, hpair.2]

theorem compound?_stop (b : Char) : compound? '.' b = none := by
  have hsyllable : syllable? '.' b = none := by
    rw [syllable?]
    simp
  have hfind : compositions.find? (fun t => t.1 == '.' && t.2.1 == b) = none := by
    rw [List.find?_eq_none]
    intro t ht
    simp [(entry_of_mem ht).base_ne_stop]
  rw [compound?, hsyllable, hfind]
  split_ifs <;> rfl

/-! ## Levels -/

theorem parts?_of_not_compound (hcompound : compounds.testBit c.toNat = false)
    (hkorean : isKorean c = false) : parts? c = none := by
  rw [Option.eq_none_iff_forall_ne_some]
  rintro ⟨a, b⟩ hparts
  rcases parts?_cases hparts with hsyllable | ht
  · rw [syllableParts?_of_not_korean hkorean] at hsyllable
    cases hsyllable
  · rw [testBit_compounds.2 ⟨_, ht, rfl⟩] at hcompound
    cases hcompound

/-- Whether a character is a letter of which Korean syllables are made up. -/
def isLetter (c : Char) : Prop := 0x1100 ≤ c.toNat ∧ c.toNat ≤ 0x11FF

theorem parts?_of_isLetter (h : isLetter c) : parts? c = none := by
  obtain ⟨hge, hle⟩ := h
  rw [Option.eq_none_iff_forall_ne_some]
  rintro ⟨a, b⟩ hparts
  rcases parts?_cases hparts with hsyllable | ht
  · rw [syllableParts?, if_neg (by omega)] at hsyllable
    cases hsyllable
  · have hforeign := (entry_of_mem ht).compound_foreign
    simp [isKorean, hge, hle] at hforeign

theorem isLetter_charOfNat (hge : 0x1100 ≤ n) (hle : n ≤ 0x11FF) : isLetter (Char.ofNat n) := by
  rw [isLetter, Utf8.toNat_charOfNat (by left; omega)]
  exact ⟨hge, hle⟩

theorem isLetter_of_syllableParts? (h : syllableParts? c = some (a, b)) :
    isLetter b ∧
      (isLetter a ∨ ∃ a' b', syllableParts? a = some (a', b') ∧ isLetter a' ∧ isLetter b') := by
  rw [syllableParts?] at h
  split_ifs at h with hrange
  dsimp only at h
  split_ifs at h with hplace
  · obtain ⟨rfl, rfl⟩ := Prod.mk.inj (Option.some.inj h)
    exact ⟨isLetter_charOfNat (by omega) (by omega),
      .inl (isLetter_charOfNat (by omega) (by omega))⟩
  · obtain ⟨rfl, rfl⟩ := Prod.mk.inj (Option.some.inj h)
    refine ⟨isLetter_charOfNat (by omega) (by omega), .inr ⟨_, _, ?_,
      isLetter_charOfNat (n := 0x1100 + (c.toNat - 0xAC00) / 588) (by omega) (by omega),
      isLetter_charOfNat (n := 0x1161 + (c.toNat - 0xAC00) % 588 / 28) (by omega) (by omega)⟩⟩
    rw [syllableParts?, Utf8.toNat_charOfNat (by left; omega), if_pos (by omega)]
    dsimp only
    have hquotient : (c.toNat - (c.toNat - 0xAC00) % 28 - 0xAC00) / 588 =
        (c.toNat - 0xAC00) / 588 := by
      omega
    have hremainder : (c.toNat - (c.toNat - 0xAC00) % 28 - 0xAC00) % 588 / 28 =
        (c.toNat - 0xAC00) % 588 / 28 := by omega
    rw [if_pos (by omega), hquotient, hremainder]

theorem ne_stop_of_parts? (h : parts? c = some (a, b)) : a ≠ '.' ∧ b ≠ '.' := by
  have hletter : ¬ isLetter '.' := by
    intro hletter
    exact absurd hletter.1 (by decide)
  rcases parts?_cases h with hsyllable | ht
  · obtain ⟨hb, ha⟩ := isLetter_of_syllableParts? hsyllable
    refine ⟨?_, fun heq => hletter (heq ▸ hb)⟩
    rintro rfl
    rcases ha with ha | ⟨a', b', hsyllable', -⟩
    · exact hletter ha
    · cases hsyllable'
  · have hentry := entry_of_mem ht
    refine ⟨hentry.base_ne_stop, ?_⟩
    rintro rfl
    exact absurd hentry.mark_ge (show ¬ 0x300 ≤ '.'.toNat by decide)

/-- A character that is taken apart within a number of levels. -/
def Within : Nat → Char → Prop
  | 0, c => parts? c = none
  | k + 1, c => ∀ a b, parts? c = some (a, b) → Within k a ∧ parts? b = none

theorem within_of_none (h : parts? c = none) (k : Nat) : Within k c := by
  cases k with
  | zero => exact h
  | succ k =>
    intro a b hparts
    rw [h] at hparts
    cases hparts

theorem within_of_parts? (h : parts? c = some (a, b)) (ha : Within k a) (hb : parts? b = none) :
    Within (k + 1) c := by
  intro a' b' hparts
  rw [h] at hparts
  obtain ⟨rfl, rfl⟩ := Prod.mk.inj (Option.some.inj hparts)
  exact ⟨ha, hb⟩

/-- The base and the mark of an entry. -/
theorem within_of_mem (ht : t ∈ compositions)
    (hbase : compounds.testBit t.1.toNat = true → Within k t.1) : Within (k + 1) t.2.2 := by
  have hentry := entry_of_mem ht
  refine within_of_parts? (parts?_of_mem ht) ?_
    (parts?_of_not_compound hentry.mark_single hentry.mark_foreign)
  by_cases hcompound : compounds.testBit t.1.toNat = true
  · exact hbase hcompound
  · exact within_of_none
      (parts?_of_not_compound (by simpa using hcompound) hentry.base_foreign) k

theorem within_of_shallow (h : (shallow k).testBit c.toNat = true) : Within k c := by
  induction k generalizing c with
  | zero => simp [shallow] at h
  | succ k ih =>
    obtain ⟨t, ht, rfl, hbase⟩ := testBit_shallow.1 h
    exact within_of_mem ht fun hcompound => ih (hbase hcompound)

/-- Every character is taken apart within three levels. -/
theorem within_three (c : Char) : Within 3 c := by
  cases hparts : parts? c with
  | none => exact within_of_none hparts 3
  | some parts =>
    -- The base of a syllable may be a syllable without its final consonant; the table was checked.
    rcases parts?_cases (a := parts.1) (b := parts.2) hparts with hsyllable | ht
    · obtain ⟨hb, ha⟩ := isLetter_of_syllableParts? hsyllable
      refine within_of_parts? hparts ?_ (parts?_of_isLetter hb)
      rcases ha with ha | ⟨a', b', hsyllable', ha', hb'⟩
      · exact within_of_none (parts?_of_isLetter ha) 2
      · exact within_of_parts? (parts?_of_syllableParts? hsyllable')
          (within_of_none (parts?_of_isLetter ha') 1) (parts?_of_isLetter hb')
    · exact within_of_mem ht fun hcompound =>
        within_of_shallow ((entry_of_mem ht).base_shallow hcompound)

theorem partsWithin_succ (h : Within k c) : partsWithin (k + 1) c = partsWithin k c := by
  induction k generalizing c with
  | zero =>
    simp only [partsWithin, show parts? c = none from h]
  | succ k ih =>
    rw [partsWithin]
    conv_rhs => rw [partsWithin]
    cases hparts : parts? c with
    | none => rfl
    | some parts =>
      dsimp only
      rw [ih (h parts.1 parts.2 hparts).1]

theorem parts?_of_mem_partsWithin (h : Within k c) (hd : d ∈ partsWithin k c) :
    parts? d = none := by
  induction k generalizing c with
  | zero =>
    rw [List.mem_singleton.1 hd]
    exact h
  | succ k ih =>
    rw [partsWithin] at hd
    cases hparts : parts? c with
    | none =>
      rw [hparts] at hd
      rw [List.mem_singleton.1 hd]
      exact hparts
    | some parts =>
      rw [hparts] at hd
      obtain ⟨ha, hb⟩ := h parts.1 parts.2 hparts
      rcases List.mem_append.1 hd with hd | hd
      · exact ih ha hd
      · rw [List.mem_singleton.1 hd]
        exact hb

/-! ## Taking apart -/

theorem decompose_of_none (h : parts? c = none) : decompose c = [c] := by
  rw [decompose, partsWithin, h]

theorem decompose_of_parts? (h : parts? c = some (a, b)) : decompose c = decompose a ++ [b] := by
  rw [decompose, partsWithin, h]
  dsimp only
  rw [decompose, partsWithin_succ (within_three c a b h).1]

/-- What is taken apart is not taken apart again. -/
theorem decompose_of_mem (h : d ∈ decompose c) : decompose d = [d] :=
  decompose_of_none (parts?_of_mem_partsWithin (within_three c) h)

theorem decompose_of_compound? (h : compound? a b = some c) :
    decompose c = decompose a ++ [b] := decompose_of_parts? (parts?_of_compound? h)

end PodCache.Text
