import Mathlib.Tactic
import PodCache.Proofs.Text.Split
import PodCache.Proofs.Url.Percent
import PodCache.Url.Path

/-!
# Reading back paths

A path that was read is a row of segments that hold no separator, nothing to encode and no dots
alone (`written_read`).  Such a row is read as itself (`Written.read_eq`).
-/

namespace PodCache.Url.Path

open Percent

variable {special : Bool} {c : Char} {s text path : List Char} {t : Trail}
  {segments : List (List Char)}

/-! ## Segments -/

/-- A segment as it is written. -/
structure IsSegment (special : Bool) (s : List Char) : Prop where
  separator : ∀ c ∈ s, isSeparator special c = false
  encoded : ∀ c ∈ s, pathSet c = false
  dot : isDot s = false
  doubleDot : isDoubleDot s = false

theorem proper_isSeparator (special : Bool) : Proper (isSeparator special) := by
  cases special <;> exact ⟨by decide, by decide⟩

theorem isBreak_eq_false (h : pathSet c = false) : isBreak c = false := by
  rw [Bool.eq_false_iff]
  intro hbreak
  simp only [isBreak, Bool.or_eq_true, beq_iff_eq] at hbreak
  rcases hbreak with (rfl | rfl) | rfl <;> exact absurd h (by decide)

theorem plain_of_encoded (h : ∀ c ∈ s, pathSet c = false) : plain s = s := by
  rw [plain, List.filter_eq_self]
  intro c hc
  rw [isBreak_eq_false (h c hc)]
  rfl

/-- The spellings of one dot and of two, in small letters. -/
def dotSpellings : List String := [".", "%2e", "..", ".%2e", "%2e.", "%2e%2e"]

theorem octet_of_dots : ∀ n < 256, ∀ dots ∈ dotSpellings,
    (octet (UInt8.ofNat n)).map Char.toLower <:+: dots.toList → n = 0x2E := by
  decide +kernel

/-- Encoding does not make dots of anything else. -/
theorem encode_of_dots (h : String.ofList ((encode pathSet s).map Char.toLower) ∈ dotSpellings) :
    encode pathSet s = s := by
  refine encode_of_forall fun c hc => ?_
  rw [Bool.eq_false_iff]
  intro hset
  obtain ⟨b, hwithin, hb⟩ := octet_infix_encode hc hset
  have hdots := octet_of_dots b.toNat b.toNat_lt _ h
  rw [UInt8.ofNat_toNat, String.toList_ofList] at hdots
  have hdot := hdots (hwithin.map Char.toLower)
  have hc : c = '.' := by
    rw [← Char.ofNat_toNat c, show c.toNat = 0x2E by omega]
  rw [hc] at hset
  exact absurd hset (by decide)

theorem isDot_encode (h : isDot s = false) : isDot (encode pathSet s) = false := by
  rw [Bool.eq_false_iff]
  intro hdot
  have hmem := List.contains_iff_mem.1 hdot
  rw [encode_of_dots (List.mem_append_left ["..", ".%2e", "%2e.", "%2e%2e"] hmem), h] at hdot
  cases hdot

theorem isDoubleDot_encode (h : isDoubleDot s = false) :
    isDoubleDot (encode pathSet s) = false := by
  rw [Bool.eq_false_iff]
  intro hdot
  have hmem := List.contains_iff_mem.1 hdot
  rw [encode_of_dots (List.mem_append_right [".", "%2e"] hmem), h] at hdot
  cases hdot

theorem isSegment_nil (special : Bool) : IsSegment special [] := ⟨nofun, nofun, rfl, rfl⟩

theorem isSegment_encode (hs : ∀ c ∈ s, isSeparator special c = false) (hd : isDot s = false)
    (hdd : isDoubleDot s = false) : IsSegment special (encode pathSet s) where
  separator c hc := by
    rcases mem_encode hc with hc | ⟨b, hb⟩
    · exact hs c hc
    · exact (proper_isSeparator special).octet b hb
  encoded c hc := proper_pathSet.encode hc
  dot := isDot_encode hd
  doubleDot := isDoubleDot_encode hdd

theorem marks_of_dots : ∀ dots ∈ dotSpellings, '.' ∈ dots.toList ∨ '%' ∈ dots.toList := by
  decide

/-- Digits and signs alone are a segment. -/
theorem isSegment_of_forall
    (h : ∀ c ∈ s, isSeparator special c = false ∧ pathSet c = false ∧
      c.toLower ≠ '.' ∧ c.toLower ≠ '%') : IsSegment special s := by
  have hdots : String.ofList (s.map Char.toLower) ∉ dotSpellings := by
    intro hmem
    have hmark := marks_of_dots _ hmem
    rw [String.toList_ofList, List.mem_map, List.mem_map] at hmark
    rcases hmark with ⟨c, hc, hdot⟩ | ⟨c, hc, hpercent⟩
    · exact (h c hc).2.2.1 hdot
    · exact (h c hc).2.2.2 hpercent
  refine ⟨fun c hc => (h c hc).1, fun c hc => (h c hc).2.1, ?_, ?_⟩
  · rw [Bool.eq_false_iff]
    exact fun hdot => hdots
      (List.mem_append_left ["..", ".%2e", "%2e.", "%2e%2e"] (List.contains_iff_mem.1 hdot))
  · rw [Bool.eq_false_iff]
    exact fun hdot => hdots (List.mem_append_right [".", "%2e"] (List.contains_iff_mem.1 hdot))

/-! ## What is read -/

/-- All segments of a trail are as they are written. -/
def Trail.Written (special : Bool) (t : Trail) : Prop := ∀ s ∈ t.segments, IsSegment special s

theorem Trail.Written.push (h : t.Written special) (hs : IsSegment special s) :
    (t.push s).Written special :=
  List.forall_mem_cons.2 ⟨hs, h⟩

theorem Trail.Written.up (h : t.Written special) : t.up.Written special := by
  intro s hs
  refine h s ?_
  simp only [Trail.up] at hs
  revert hs
  cases t.segments with
  | nil => exact id
  | cons last front =>
    rw [parent]
    split_ifs
    · exact id
    · exact List.mem_cons_of_mem last

theorem Trail.Written.read (h : t.Written special) (last : Bool)
    (hs : ∀ c ∈ text, isSeparator special c = false) :
    (t.read false last text).Written special := by
  have hplain : ∀ c ∈ plain text, isSeparator special c = false := fun c hc =>
    hs c (List.mem_of_mem_filter hc)
  simp only [Trail.read, Bool.false_and, Bool.false_eq_true, if_false, Trail.addResolved,
    Trail.add]
  split_ifs with hdd _ hd
  · exact h.up.push (isSegment_nil special)
  · exact h.up
  · exact h.push (isSegment_nil special)
  · exact h
  · exact h.push (isSegment_encode hplain (by simpa using hd) (by simpa using hdd))

theorem Trail.Written.readAll {pieces : List (List Char)} (h : t.Written special)
    (hs : ∀ piece ∈ pieces, ∀ c ∈ piece, isSeparator special c = false) :
    (t.readAll false pieces).Written special := by
  induction pieces generalizing t with
  | nil => exact h
  | cons piece pieces ih =>
    obtain ⟨hpiece, hpieces⟩ := List.forall_mem_cons.1 hs
    exact ih (h.read _ hpiece) hpieces

/-- The last piece of a path leaves a segment, if only an empty one. -/
theorem segments_readAll_ne_nil {pieces : List (List Char)} (h : pieces ≠ []) (t : Trail) :
    (t.readAll false pieces).segments ≠ [] := by
  induction pieces generalizing t with
  | nil => exact absurd rfl h
  | cons piece pieces ih =>
    cases pieces with
    | nil =>
      simp only [Trail.readAll, Trail.read, Bool.false_and, Bool.false_eq_true, if_false,
        Trail.addResolved, Trail.add, List.isEmpty_nil, if_true, Trail.push]
      split_ifs <;> exact List.cons_ne_nil _ _
    | cons next pieces => exact ih (List.cons_ne_nil _ _) _

/-! ## Whole paths -/

/-- A row of written segments. -/
def Written (special : Bool) (path : List Char) : Prop :=
  ∃ segments : List (List Char), segments ≠ [] ∧ (∀ s ∈ segments, IsSegment special s) ∧
    path = segments.flatMap ('/' :: ·)

theorem written_read (special : Bool) (text : List Char) : Written special (read special text) := by
  have hwritten : (trail special false (dropSeparator special text)).Written special :=
    Trail.Written.readAll nofun fun piece hpiece c hc => (Text.mem_of_mem_splitAll hpiece hc).2
  refine ⟨_, ?_, fun s hs => hwritten s (List.mem_reverse.1 hs), rfl⟩
  rw [Ne, List.reverse_eq_nil_iff]
  exact segments_readAll_ne_nil (Text.splitAll_ne_nil _ _) _

theorem flatMap_slash (h : segments ≠ []) :
    segments.flatMap ('/' :: ·) = '/' :: ['/'].intercalate segments := by
  induction segments with
  | nil => exact absurd rfl h
  | cons s segments ih =>
    cases segments with
    | nil => simp
    | cons next segments =>
      rw [List.flatMap_cons, ih (List.cons_ne_nil _ _), List.intercalate_cons_cons]
      simp

theorem read_segment (h : IsSegment special s) (last : Bool) (t : Trail) :
    t.read false last s = t.push s := by
  simp only [Trail.read, Bool.false_and, Bool.false_eq_true, if_false, Trail.addResolved,
    Trail.add, plain_of_encoded h.encoded, h.dot, h.doubleDot, encode_of_forall h.encoded]

theorem readAll_segments (h : ∀ s ∈ segments, IsSegment special s) (t : Trail) :
    (t.readAll false segments).segments = segments.reverse ++ t.segments := by
  induction segments generalizing t with
  | nil => rfl
  | cons s segments ih =>
    obtain ⟨hs, hrest⟩ := List.forall_mem_cons.1 h
    rw [Trail.readAll, ih hrest, read_segment hs, List.reverse_cons, List.append_assoc]
    rfl

theorem Written.exists_cons (h : Written special path) : ∃ tail, path = '/' :: tail := by
  obtain ⟨segments, hne, -, rfl⟩ := h
  exact ⟨_, flatMap_slash hne⟩

/-- A path as it is written is read as itself. -/
theorem Written.read_eq (h : Written special path) : read special path = path := by
  obtain ⟨segments, hne, hs, rfl⟩ := h
  have hslash : isSeparator special '/' = true := by cases special <;> rfl
  have hdrop : dropSeparator special (segments.flatMap ('/' :: ·)) =
      ['/'].intercalate segments := by
    rw [flatMap_slash hne, dropSeparator, afterSeparator?, List.dropWhile_cons_of_neg (by decide)]
    simp [hslash]
  rw [read, hdrop, trail, Text.splitAll_intercalate hslash hne fun s h => (hs s h).separator,
    render, readAll_segments hs]
  simp

/-- Nothing in a path is encoded again. -/
theorem Written.encoded (h : Written special path) : ∀ c ∈ path, pathSet c = false := by
  obtain ⟨segments, -, hs, rfl⟩ := h
  intro c hc
  obtain ⟨s, hmem, hc⟩ := List.mem_flatMap.1 hc
  rcases List.mem_cons.1 hc with rfl | hc
  · decide
  · exact (hs s hmem).encoded c hc

theorem written_segment (h : IsSegment special s) : Written special ('/' :: s) :=
  ⟨[s], List.cons_ne_nil _ _, by simpa using h, by simp⟩

end PodCache.Url.Path
