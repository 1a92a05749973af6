import Mathlib.Tactic
import PodCache.Proofs.Lists
import PodCache.Proofs.Url.Mapping
import PodCache.Proofs.Url.Punycode
import PodCache.Url.Domain.Basic

/-!
# Reading back domain names

The ASCII form of a domain name is its own ASCII form (`ReadsBack`), to a reader that takes Punycode
of any length (`readsBack`).  A label is read as the plain label that was written
(`plainLabel?_asciiLabel`): all its characters are kept, and it is composed.
-/

namespace PodCache.Url.Domain

open Text

variable {limits : Limits} {c : Char} {name text label piece : List Char}
  {labels : List (List Char)}

/-! ## Plain labels -/

/-- A label that stands in a normal form or that a Punycode stands for. -/
structure IsLabel (limits : Limits) (label : List Char) : Prop where
  kept : ∀ c ∈ label, isKept c = true
  composed : compose label = label
  stop : '.' ∉ label
  wellFormed : isWellFormed limits label = true
  /-- An ASCII label is not taken for a Punycode. -/
  unmarked : isAscii label = true → punycodeMark.isPrefixOf label = false

theorem isAscii_iff : isAscii label = true ↔ ∀ c ∈ label, c.toNat < 128 := by
  simp [isAscii]

theorem exists_of_isAscii (h : isAscii label = false) : ∃ c ∈ label, 128 ≤ c.toNat := by
  simpa [isAscii] using h

theorem toLower_of_isKept (h : isKept c = true) (hlt : c.toNat < 128) : c.toLower = c := by
  rw [isKept, mapChar?_of_ascii hlt] at h
  simpa using h

theorem eq_stop_of_toLower (hlt : c.toNat < 128) (h : c.toLower = '.') : c = '.' := by
  have hall : ∀ n < 128, (Char.ofNat n).toLower = '.' → Char.ofNat n = '.' := by decide
  rw [← Char.ofNat_toNat c] at h ⊢
  exact hall c.toNat hlt h

/-- A label that a Punycode stands for is one that could have been written plainly. -/
theorem isLabel_of_ofPunycode? {code : List Char} (hstop : '.' ∉ code)
    (h : ofPunycode? limits code = some label) (hwell : isWellFormed limits label = true) :
    IsLabel limits label := by
  rw [ofPunycode?] at h
  split_ifs at h with hrefused
  obtain ⟨hread, hplain⟩ := Option.filter_eq_some_iff.1 h
  simp only [Bool.and_eq_true, List.all_eq_true, beq_iff_eq] at hplain
  rw [not_or, not_or] at hrefused
  refine ⟨hplain.1, hplain.2, fun hmem => ?_, hwell, fun hascii => ?_⟩
  · rcases Punycode.mem_of_decode? hread hmem with ⟨d, hd, hlt, hlower⟩ | hge
    · exact hstop (eq_stop_of_toLower hlt hlower.symm ▸ hd)
    · exact absurd hge (by decide)
  · have hne : code ≠ [] := fun hnil => hrefused.1 (by rw [hnil]; rfl)
    obtain ⟨c, hc, hge⟩ := Punycode.exists_of_decode? hread hne hrefused.2.1
    have hlt := isAscii_iff.1 hascii c hc
    omega

/-- A label of a composed text of kept characters gives a plain label. -/
theorem isLabel_of_plainLabel? (hkept : ∀ c ∈ piece, isKept c = true)
    (hcomposed : compose piece = piece) (hstop : '.' ∉ piece)
    (h : plainLabel? limits piece = some label) :
    IsLabel limits label := by
  obtain ⟨hread, hwell⟩ := Option.filter_eq_some_iff.1 h
  split_ifs at hread with hmark
  · exact isLabel_of_ofPunycode? (fun hmem => hstop (List.mem_of_mem_drop hmem)) hread hwell
  · obtain rfl := Option.some.inj hread
    exact ⟨hkept, hcomposed, hstop, hwell, fun _ => Bool.eq_false_iff.2 hmark⟩

/-! ## Labels in ASCII -/

theorem mem_asciiLabel (h : IsLabel limits label) (hc : c ∈ asciiLabel label) :
    c.toNat < 128 ∧ c.toLower = c ∧ c ≠ '.' := by
  have hmark : ∀ c ∈ punycodeMark, c.toNat < 128 ∧ c.toLower = c ∧ c ≠ '.' := by
    simp [punycodeMark]
  have hdigit : ∀ d < 36, (Punycode.digit d).toNat < 128 ∧
      (Punycode.digit d).toLower = Punycode.digit d ∧ Punycode.digit d ≠ '.' := by decide
  have hlabel : ∀ c ∈ label, c.toNat < 128 → c.toNat < 128 ∧ c.toLower = c ∧ c ≠ '.' :=
    fun c hc hlt => ⟨hlt, toLower_of_isKept (h.kept c hc) hlt, fun heq => h.stop (heq ▸ hc)⟩
  rw [asciiLabel] at hc
  split_ifs at hc with hascii
  · exact hlabel c hc (isAscii_iff.1 hascii c hc)
  · rcases List.mem_append.1 hc with hc | hc
    · exact hmark c hc
    · rcases Punycode.mem_encode hc with ⟨hc, hlt⟩ | rfl | ⟨d, hd, rfl⟩
      · exact hlabel c hc hlt
      · decide
      · exact hdigit d hd

theorem plainLabel?_of_isAscii (h : IsLabel limits label) (hascii : isAscii label = true) :
    plainLabel? limits (asciiLabel label) = some label := by
  rw [asciiLabel, if_pos hascii, plainLabel?, h.unmarked hascii, if_neg Bool.false_ne_true,
    Option.filter_some, if_pos h.wellFormed]

/-- A label in ASCII is read as the plain label. -/
theorem plainLabel?_asciiLabel (hcode : limits.code = none) (hnumber : limits.number = none)
    (h : IsLabel limits label) : plainLabel? limits (asciiLabel label) = some label := by
  cases hascii : isAscii label with
  | true => exact plainLabel?_of_isAscii h hascii
  | false =>
    obtain ⟨c, hc, hge⟩ := exists_of_isAscii hascii
    obtain ⟨d, hd, hlast⟩ := Punycode.getLast?_encode hc hge
    have hhyphen : ∀ d < 36, Punycode.digit d ≠ '-' := by decide
    have hmark : punycodeMark.isPrefixOf (punycodeMark ++ Punycode.encode label) = true :=
      List.isPrefixOf_iff_prefix.2 (List.prefix_append _ _)
    have hdrop : (punycodeMark ++ Punycode.encode label).drop 4 = Punycode.encode label := rfl
    have hdecode : Punycode.decode? limits (Punycode.encode label) = some label :=
      Punycode.decode?_encode hnumber fun c hc => toLower_of_isKept (h.kept c hc)
    have hread : ofPunycode? limits (Punycode.encode label) = some label := by
      have hplain : (label.all isKept && compose label == label) = true := by
        simpa [h.composed] using h.kept
      rw [ofPunycode?, if_neg, hdecode, Option.filter_some, if_pos hplain]
      rw [hlast, hcode]
      simp [hhyphen d hd]
    rw [asciiLabel, hascii, if_neg Bool.false_ne_true, plainLabel?, if_pos hmark, hdrop, hread,
      Option.filter_some, if_pos h.wellFormed]

/-! ## Domain names -/

theorem normalForm?_of_ascii (h : ∀ c ∈ text, c.toNat < 128 ∧ c.toLower = c) :
    normalForm? text = some text := by
  have hmap : text.mapM mapChar? = some (text.map fun c => [c]) := by
    induction text with
    | nil => rfl
    | cons c text ih =>
      obtain ⟨⟨hlt, hlower⟩, htext⟩ := List.forall_mem_cons.1 h
      simp [mapChar?_of_ascii hlt, hlower, ih htext]
  have hflat : (text.map fun c => [c]).flatten = text := by simp [← List.flatMap_def]
  rw [normalForm?, hmap, Option.map_some, hflat, compose_of_ascii fun c hc => (h c hc).1]

theorem splitAll_asciiLabels (hne : labels ≠ [])
    (hlabels : ∀ label ∈ labels, IsLabel limits label) :
    splitAll (· == '.') (['.'].intercalate (labels.map asciiLabel)) = labels.map asciiLabel := by
  refine splitAll_intercalate (p := (· == '.')) (by simp) (by simpa using hne) ?_
  intro piece hpiece c hc
  obtain ⟨label, hlabel, rfl⟩ := List.mem_map.1 hpiece
  simpa using (mem_asciiLabel (hlabels label hlabel) hc).2.2

/-- Plain labels of one direction, written in ASCII, are read as they are if each of them is. -/
theorem ascii?_intercalate (hne : labels ≠ []) (hlabels : ∀ label ∈ labels, IsLabel limits label)
    (huniform : areUniform labels = true)
    (hread : ∀ label ∈ labels, plainLabel? limits (asciiLabel label) = some label) :
    ascii? limits (['.'].intercalate (labels.map asciiLabel)) =
      some (['.'].intercalate (labels.map asciiLabel)) := by
  have hnormal : normalForm? (['.'].intercalate (labels.map asciiLabel)) =
      some (['.'].intercalate (labels.map asciiLabel)) := by
    refine normalForm?_of_ascii fun c hc => ?_
    rcases mem_intercalate hc with rfl | ⟨piece, hpiece, hc⟩
    · decide
    · obtain ⟨label, hlabel, rfl⟩ := List.mem_map.1 hpiece
      have hmem := mem_asciiLabel (hlabels label hlabel) hc
      exact ⟨hmem.1, hmem.2.1⟩
  have hplain : (labels.map asciiLabel).mapM (plainLabel? limits) = some labels :=
    mapM_map_eq_some hread
  rw [ascii?, labels?, hnormal]
  simp [splitAll_asciiLabels hne hlabels, hplain, huniform]

/-- The labels of a name in normal form are plain ones. -/
theorem isLabel_of_labels? (h : labels? limits name = some labels) :
    labels ≠ [] ∧ areUniform labels = true ∧ ∀ label ∈ labels, IsLabel limits label := by
  simp only [labels?, Option.bind_eq_bind, Option.bind_eq_some_iff] at h
  obtain ⟨text, htext, pieces, hpieces, h⟩ := h
  split_ifs at h with huniform
  obtain rfl := Option.some.inj h
  rw [normalForm?] at htext
  obtain ⟨targets, htargets, rfl⟩ := Option.map_eq_some_iff.1 htext
  have hkept : ∀ c ∈ compose targets.flatten, isKept c = true := by
    refine shared_isKept.compose fun c hc => ?_
    obtain ⟨target, htarget, hc⟩ := List.mem_flatten.1 hc
    exact forall_of_mapM htargets (fun _ _ _ => isKept_of_mapChar?) target htarget c hc
  have hstop : ∀ piece ∈ splitAll (· == '.') (compose targets.flatten), '.' ∉ piece :=
    fun piece hpiece hmem => by simpa using (mem_of_mem_splitAll hpiece hmem).2
  -- The text as a whole is composed, and nothing is composed across a full stop.
  have hcomposed := compose_of_intercalate hstop
    (by rw [intercalate_splitAll, compose_compose])
  refine ⟨?_, huniform, forall_of_mapM hpieces fun piece hpiece label hlabel => ?_⟩
  · rw [← List.length_pos_iff, length_of_mapM hpieces, List.length_pos_iff]
    exact splitAll_ne_nil _ _
  · exact isLabel_of_plainLabel? (fun c hc => hkept c (mem_of_mem_splitAll hpiece hc).1)
      (hcomposed piece hpiece) (hstop piece hpiece) hlabel

/-! ## Reading back -/

/-- The ASCII form of every domain name is its own ASCII form. -/
def ReadsBack (limits : Limits) : Prop :=
  ∀ name text, ascii? limits name = some text → ascii? limits text = some text

/-- A reader that takes Punycode of any length and numbers of any size reads back what it writes. -/
theorem readsBack (hcode : limits.code = none) (hnumber : limits.number = none) :
    ReadsBack limits := by
  intro name text h
  obtain ⟨labels, hread, rfl⟩ := Option.map_eq_some_iff.1 h
  obtain ⟨hne, huniform, hlabels⟩ := isLabel_of_labels? hread
  exact ascii?_intercalate hne hlabels huniform fun label hlabel =>
    plainLabel?_asciiLabel hcode hnumber (hlabels label hlabel)

/-! ## Names without marked labels -/

/-- A domain name without capital letters, characters beyond ASCII and Punycode. -/
structure IsPlain (name : List Char) : Prop where
  ascii : ∀ c ∈ name, c.toNat < 128
  lower : ∀ c ∈ name, c.toLower = c
  labels : ∀ label ∈ splitAll (· == '.') name, punycodeMark.isPrefixOf label = false

theorem areUniform_of_ascii (h : ∀ label ∈ labels, ∀ c ∈ label, c.toNat < 128) :
    areUniform labels = true := by
  have hchar : ∀ c : Char, c.toNat < 128 → Direction.isReversing (Direction.ofChar c) = false := by
    intro c hc
    rw [Direction.ofChar, if_pos hc]
    split_ifs <;> rfl
  have hnone : (labels.map fun label => label.map Direction.ofChar).any
      (fun label => label.any Direction.isReversing) = false := by
    rw [List.any_eq_false]
    intro directions hdirections
    obtain ⟨label, hlabel, rfl⟩ := List.mem_map.1 hdirections
    rw [Bool.not_eq_true, List.any_eq_false]
    intro direction hdirection
    obtain ⟨c, hc, rfl⟩ := List.mem_map.1 hdirection
    simp [hchar c (h label hlabel c hc)]
  rw [areUniform, hnone]
  rfl

theorem ascii?_of_isPlain (limits : Limits) (h : IsPlain name) :
    ascii? limits name = some name := by
  have hascii : ∀ label ∈ splitAll (· == '.') name, isAscii label = true :=
    fun label hlabel => isAscii_iff.2 fun c hc => h.ascii c (mem_of_mem_splitAll hlabel hc).1
  have hlabels : ∀ label ∈ splitAll (· == '.') name, IsLabel limits label := fun label hlabel => {
    kept := fun c hc => by
      have hmem := (mem_of_mem_splitAll hlabel hc).1
      exact isKept_of_mapChar?_self (by rw [mapChar?_of_ascii (h.ascii c hmem), h.lower c hmem])
    composed := compose_of_ascii (isAscii_iff.1 (hascii label hlabel))
    stop := fun hmem => by simpa using (mem_of_mem_splitAll hlabel hmem).2
    wellFormed := by rw [isWellFormed, hascii label hlabel, Bool.true_or]
    unmarked := fun _ => h.labels label hlabel }
  have hwritten : (splitAll (· == '.') name).map asciiLabel = splitAll (· == '.') name :=
    (List.map_congr_left fun label hlabel => if_pos (hascii label hlabel)).trans (List.map_id _)
  have hread := ascii?_intercalate (splitAll_ne_nil _ _) hlabels
    (areUniform_of_ascii fun label hlabel => isAscii_iff.1 (hascii label hlabel))
    fun label hlabel => plainLabel?_of_isAscii (hlabels label hlabel) (hascii label hlabel)
  rwa [hwritten, intercalate_splitAll] at hread

end PodCache.Url.Domain
