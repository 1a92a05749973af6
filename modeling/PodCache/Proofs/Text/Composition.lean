import Mathlib.Tactic
import PodCache.Proofs.Text.Compounds
import PodCache.Proofs.Text.Split

/-!
# Composing texts

ASCII texts are composed already (`compose_of_ascii`).
-/

namespace PodCache.Text

variable {c d : Char} {cs : List Char}

/-! ## ASCII -/

theorem decompose_of_lt (h : c.toNat < 0xC0) : decompose c = [c] := by
  rw [decompose, partsWithin, parts?, if_pos h]

theorem combiningClass_of_lt (h : c.toNat < 0x300) : combiningClass c = 0 := if_pos h

theorem insertMark_of_starter {cs : List Char} (h : ∀ d ∈ cs.head?, combiningClass d = 0) :
    insertMark c cs = c :: cs := by
  cases cs with
  | nil => rfl
  | cons d cs => rw [insertMark, if_neg (by simp [h d rfl])]

theorem Cluster.joined?_of_lt (k : Cluster) (h : c.toNat < 0x300) : k.joined? c = none := by
  have hcompound : (fun b => compound? b c) = fun _ => none := by
    funext b
    rw [compound?, if_pos h]
  rw [Cluster.joined?, hcompound]
  split_ifs <;> simp

theorem Cluster.text_push_of_none {k : Cluster} (h : k.joined? c = none) :
    (k.push c).text = k.text ++ [c] := by
  rw [Cluster.push, h]
  dsimp only
  split_ifs <;> simp [Cluster.text]

theorem foldl_push_of_lt (k : Cluster) (h : ∀ c ∈ cs, c.toNat < 0x300) :
    (cs.foldl Cluster.push k).text = k.text ++ cs := by
  induction cs generalizing k with
  | nil => simp
  | cons c cs ih =>
    obtain ⟨hc, hcs⟩ := List.forall_mem_cons.1 h
    rw [List.foldl_cons, ih _ hcs, Cluster.text_push_of_none (k.joined?_of_lt hc)]
    simp

theorem orderMarks_of_lt (h : ∀ c ∈ cs, c.toNat < 0x300) : orderMarks cs = cs := by
  induction cs with
  | nil => rfl
  | cons c cs ih =>
    obtain ⟨-, hcs⟩ := List.forall_mem_cons.1 h
    rw [orderMarks, List.foldr_cons, ← orderMarks, ih hcs]
    exact insertMark_of_starter fun d hd => combiningClass_of_lt (hcs d (List.mem_of_mem_head? hd))

theorem compose_of_ascii (h : ∀ c ∈ cs, c.toNat < 128) : compose cs = cs := by
  have hparts : cs.flatMap decompose = cs := by
    rw [List.flatMap_congr fun c hc => decompose_of_lt (by have := h c hc; omega)]
    simp
  have hlt : ∀ c ∈ cs, c.toNat < 0x300 := fun c hc => by have := h c hc; omega
  rw [compose, hparts, orderMarks_of_lt hlt, foldl_push_of_lt _ hlt]
  rfl

/-! ## Order -/

/-- No mark follows a mark of a higher class. -/
def Ordered (cs : List Char) : Prop :=
  cs.IsChain fun a b => combiningClass b = 0 ∨ combiningClass a ≤ combiningClass b

theorem insertMark_of_ordered (h : Ordered (c :: cs)) : insertMark c cs = c :: cs := by
  cases cs with
  | nil => rfl
  | cons d cs =>
    have hstep := (List.isChain_cons_cons.1 h).1
    rw [insertMark, if_neg (by omega)]

theorem Ordered.insertMark (h : Ordered cs) (c : Char) : Ordered (insertMark c cs) := by
  induction cs with
  | nil => exact List.isChain_singleton c
  | cons d cs ih =>
    rw [Text.insertMark]
    split_ifs with hpass
    · have htail := ih h.tail
      cases cs with
      | nil => exact List.isChain_cons_cons.2 ⟨.inr hpass.2.le, List.isChain_singleton c⟩
      | cons e cs =>
        have hstep := (List.isChain_cons_cons.1 h).1
        rw [Text.insertMark] at htail ⊢
        split_ifs at htail ⊢
        · exact List.isChain_cons_cons.2 ⟨hstep, htail⟩
        · exact List.isChain_cons_cons.2 ⟨.inr hpass.2.le, htail⟩
    · exact List.isChain_cons_cons.2 ⟨by omega, h⟩

theorem ordered_orderMarks (cs : List Char) : Ordered (orderMarks cs) := by
  induction cs with
  | nil => exact List.isChain_nil
  | cons c cs ih => exact ih.insertMark c

theorem orderMarks_of_ordered (h : Ordered cs) : orderMarks cs = cs := by
  induction cs with
  | nil => rfl
  | cons c cs ih =>
    rw [orderMarks, List.foldr_cons, ← orderMarks, ih h.tail, insertMark_of_ordered h]

theorem insertMark_perm (c : Char) (cs : List Char) : (insertMark c cs).Perm (c :: cs) := by
  induction cs with
  | nil => exact List.Perm.refl _
  | cons d cs ih =>
    rw [insertMark]
    split_ifs
    · exact (ih.cons d).trans (List.Perm.swap c d cs)
    · exact List.Perm.refl _

theorem orderMarks_perm (cs : List Char) : (orderMarks cs).Perm cs := by
  induction cs with
  | nil => exact List.Perm.refl _
  | cons c cs ih => exact (insertMark_perm c _).trans (ih.cons c)

/-- Marks of different classes are put in without regard to their order. -/
theorem insertMark_comm (hc : 0 < combiningClass c) (hlt : combiningClass c < combiningClass d)
    (cs : List Char) : insertMark c (insertMark d cs) = insertMark d (insertMark c cs) := by
  induction cs with
  | nil => simp [insertMark, hc, hlt, hlt.le]
  | cons e cs ih =>
    by_cases hpass : 0 < combiningClass e ∧ combiningClass e < combiningClass c
    · have hpass' : 0 < combiningClass e ∧ combiningClass e < combiningClass d := by omega
      simp only [insertMark, if_pos hpass, if_pos hpass', ih]
    · have hfirst : insertMark c (e :: cs) = c :: e :: cs := by rw [insertMark, if_neg hpass]
      have hbehind : insertMark d (c :: e :: cs) = c :: insertMark d (e :: cs) := by
        rw [insertMark, if_pos ⟨hc, hlt⟩]
      rw [hfirst, hbehind]
      by_cases hpass' : 0 < combiningClass e ∧ combiningClass e < combiningClass d
      · have he : insertMark d (e :: cs) = e :: insertMark d cs := by rw [insertMark, if_pos hpass']
        rw [he, insertMark, if_neg hpass]
      · have he : insertMark d (e :: cs) = d :: e :: cs := by rw [insertMark, if_neg hpass']
        rw [he, insertMark, if_neg (by omega)]

/-- Two texts with the same marks on each cluster. -/
def Same (cs ds : List Char) : Prop := orderMarks cs = orderMarks ds

theorem Same.trans {cs ds es : List Char} (h : Same cs ds) (h' : Same ds es) : Same cs es :=
  Eq.trans h h'

theorem Same.append_left {ds es : List Char} (h : Same ds es) (cs : List Char) :
    Same (cs ++ ds) (cs ++ es) := by
  rw [Same, orderMarks, orderMarks, List.foldr_append, List.foldr_append]
  exact congrArg (List.foldr insertMark · cs) h

/-- A mark passes marks of lower classes. -/
theorem same_of_lower {ms : List Char}
    (h : ∀ m ∈ ms, 0 < combiningClass m ∧ combiningClass m < combiningClass c) (cs : List Char) :
    Same (c :: (ms ++ cs)) (ms ++ c :: cs) := by
  induction ms with
  | nil => rfl
  | cons m ms ih =>
    obtain ⟨hm, hms⟩ := List.forall_mem_cons.1 h
    have hswap : Same (c :: m :: (ms ++ cs)) (m :: c :: (ms ++ cs)) :=
      (insertMark_comm hm.1 hm.2 _).symm
    exact hswap.trans ((ih hms).append_left [m])

/-! ## Joining -/

namespace Cluster

/-- The marks of a cluster are parts in order, with what follows them. -/
structure Fits (k : Cluster) (cs : List Char) : Prop where
  parts : ∀ m ∈ k.marks, decompose m = [m]
  marks : ∀ m ∈ k.marks, 0 < combiningClass m
  ordered : Ordered (k.marks ++ cs)

variable {k : Cluster}

theorem le_getLast {ms : List Char} {last m : Char} (h : Ordered ms)
    (hpos : ∀ m ∈ ms, 0 < combiningClass m) (hlast : ms.getLast? = some last) (hm : m ∈ ms) :
    combiningClass m ≤ combiningClass last := by
  induction ms generalizing m with
  | nil => cases hm
  | cons first ms ih =>
    cases ms with
    | nil =>
      obtain rfl := List.mem_singleton.1 hm
      obtain rfl := Option.some.inj hlast
      exact le_rfl
    | cons second ms =>
      obtain ⟨hstep, htail⟩ := List.isChain_cons_cons.1 h
      obtain ⟨-, hrest⟩ := List.forall_mem_cons.1 hpos
      rw [List.getLast?_cons_cons] at hlast
      rcases List.mem_cons.1 hm with rfl | hm
      · have hsecond := hrest second List.mem_cons_self
        exact (hstep.resolve_left (by omega)).trans (ih htail hrest hlast List.mem_cons_self)
      · exact ih htail hrest hlast hm

theorem lower_of_reaches (h : k.Fits cs) (hreach : k.reaches c = true) :
    ∀ m ∈ k.marks, combiningClass m < combiningClass c := by
  intro m hm
  have hlast := List.getLast?_eq_some_getLast (List.ne_nil_of_mem hm)
  rw [reaches, hlast] at hreach
  have hle := le_getLast (List.isChain_append.1 h.ordered).1 h.marks hlast hm
  simp only [decide_eq_true_eq] at hreach
  omega

theorem exists_of_joined? (h : k.joined? c = some d) :
    k.reaches c = true ∧ ∃ b, k.base = some b ∧ compound? b c = some d := by
  rw [joined?] at h
  split_ifs at h with hreach
  exact ⟨hreach, Option.bind_eq_some_iff.1 h⟩

/-- What is joined is taken apart as it was. -/
theorem same_push (h : k.Fits (c :: cs)) (hc : decompose c = [c]) :
    Same ((k.push c).text.flatMap decompose ++ cs) (k.text.flatMap decompose ++ c :: cs) := by
  cases hjoined : k.joined? c with
  | none =>
    rw [text_push_of_none hjoined, List.flatMap_append, List.flatMap_singleton, hc]
    simp [Same]
  | some d =>
    obtain ⟨hreach, b, hbase, hcompound⟩ := exists_of_joined? hjoined
    have hmarks : k.marks.flatMap decompose = k.marks := by
      rw [List.flatMap_congr h.parts]
      simp
    -- The marks on the base are of lower classes, so a mark that joins the base passes them.
    have hlower := same_of_lower (fun m hm => ⟨h.marks m hm, lower_of_reaches h hreach m hm⟩) cs
    rw [push, hjoined]
    simp only [text, hbase, Option.toList_some, List.flatMap_append, List.flatMap_singleton,
      decompose_of_compound? hcompound, hmarks, List.append_assoc]
    exact (hlower.append_left _).append_left _

theorem Fits.push (h : k.Fits (c :: cs)) (hc : decompose c = [c]) : (k.push c).Fits cs := by
  obtain ⟨hleft, hright, hbetween⟩ := List.isChain_append.1 h.ordered
  cases hjoined : k.joined? c with
  | none =>
    rw [Cluster.push, hjoined]
    dsimp only
    split_ifs with hclass
    · exact ⟨nofun, nofun, hright.tail⟩
    · refine ⟨?_, ?_, ?_⟩
      · simpa [or_imp, forall_and, hc] using h.parts
      · simpa [or_imp, forall_and, Nat.pos_of_ne_zero hclass] using h.marks
      · simpa using h.ordered
  | some d =>
    obtain ⟨hreach, -⟩ := exists_of_joined? hjoined
    rw [Cluster.push, hjoined]
    refine ⟨h.parts, h.marks, List.isChain_append.2 ⟨hleft, hright.tail, ?_⟩⟩
    intro m hm e he
    have hlower := lower_of_reaches h hreach m (List.mem_of_getLast? hm)
    cases cs with
    | nil => cases he
    | cons first cs =>
      obtain rfl := Option.some.inj he
      have hstep := (List.isChain_cons_cons.1 hright).1
      omega

theorem same_foldl (h : k.Fits cs) (hcs : ∀ c ∈ cs, decompose c = [c]) :
    Same ((cs.foldl Cluster.push k).text.flatMap decompose) (k.text.flatMap decompose ++ cs) := by
  induction cs generalizing k with
  | nil => rw [List.foldl_nil, List.append_nil]; rfl
  | cons c cs ih =>
    obtain ⟨hc, hcs⟩ := List.forall_mem_cons.1 hcs
    exact (ih (h.push hc) hcs).trans (same_push h hc)

end Cluster

/-- Taking a composed text apart gives what was composed. -/
theorem orderMarks_decompose_compose (cs : List Char) :
    orderMarks ((compose cs).flatMap decompose) = orderMarks (cs.flatMap decompose) := by
  have hparts : ∀ c ∈ orderMarks (cs.flatMap decompose), decompose c = [c] := by
    intro c hc
    obtain ⟨d, -, hd⟩ := List.mem_flatMap.1 ((orderMarks_perm _).mem_iff.1 hc)
    exact decompose_of_mem hd
  have hsame := Cluster.same_foldl (k := {}) ⟨nofun, nofun, ordered_orderMarks _⟩ hparts
  exact hsame.trans (orderMarks_of_ordered (ordered_orderMarks _))

/-- A composed text is composed already. -/
theorem compose_compose (cs : List Char) : compose (compose cs) = compose cs := by
  rw [compose, orderMarks_decompose_compose]
  rfl

/-! ## Which characters come out -/

/-- A property of characters that compounds share with their parts. -/
structure Shared (Q : Char → Prop) : Prop where
  parts : ∀ {a b c}, parts? c = some (a, b) → Q c → Q a ∧ Q b
  compound : ∀ {a b c}, compound? a b = some c → Q a → Q b → Q c

section

variable {Q : Char → Prop}

theorem Shared.decompose (h : Shared Q) (hc : Q c) (hd : d ∈ decompose c) : Q d := by
  suffices hwithin : ∀ k c, Q c → ∀ d ∈ partsWithin k c, Q d from hwithin 3 c hc d hd
  intro k
  induction k with
  | zero =>
    intro c hc d hd
    rwa [List.mem_singleton.1 hd]
  | succ k ih =>
    intro c hc d hd
    rw [partsWithin] at hd
    cases hparts : parts? c with
    | none =>
      rw [hparts] at hd
      rwa [List.mem_singleton.1 hd]
    | some parts =>
      rw [hparts] at hd
      obtain ⟨ha, hb⟩ := h.parts hparts hc
      rcases List.mem_append.1 hd with hd | hd
      · exact ih parts.1 ha d hd
      · rwa [List.mem_singleton.1 hd]

theorem Shared.push (h : Shared Q) {k : Cluster} (hk : ∀ d ∈ k.text, Q d) (hc : Q c) :
    ∀ d ∈ (k.push c).text, Q d := by
  intro d hd
  cases hjoined : k.joined? c with
  | none =>
    rw [Cluster.text_push_of_none hjoined] at hd
    rcases List.mem_append.1 hd with hd | hd
    · exact hk d hd
    · rwa [List.mem_singleton.1 hd]
  | some e =>
    obtain ⟨-, b, hbase, hcompound⟩ := Cluster.exists_of_joined? hjoined
    rw [Cluster.push, hjoined] at hd
    have hb : Q b := hk b (by simp [Cluster.text, hbase])
    simp only [Cluster.text, Option.toList_some, List.mem_append, List.mem_singleton] at hd
    rcases hd with (hd | rfl) | hd
    · exact hk d (by simp [Cluster.text, hd])
    · exact h.compound hcompound hb hc
    · exact hk d (by simp [Cluster.text, hd])

theorem Shared.foldl_push (h : Shared Q) {k : Cluster} (hk : ∀ d ∈ k.text, Q d)
    (hcs : ∀ c ∈ cs, Q c) : ∀ d ∈ (cs.foldl Cluster.push k).text, Q d := by
  induction cs generalizing k with
  | nil => exact hk
  | cons c cs ih =>
    obtain ⟨hc, hcs⟩ := List.forall_mem_cons.1 hcs
    exact ih (h.push hk hc) hcs

/-- What all characters of a text share, those of the composed text do. -/
theorem Shared.compose (h : Shared Q) (hcs : ∀ c ∈ cs, Q c) : ∀ c ∈ compose cs, Q c := by
  refine h.foldl_push nofun fun c hc => ?_
  obtain ⟨d, hd, hc⟩ := List.mem_flatMap.1 ((orderMarks_perm _).mem_iff.1 hc)
  exact h.decompose (hcs d hd) hc

end

/-! ## Labels -/

theorem combiningClass_stop : combiningClass '.' = 0 := combiningClass_of_lt (by decide)

theorem insertMark_append_stop (c : Char) (cs ds : List Char) :
    insertMark c (cs ++ '.' :: ds) = insertMark c cs ++ '.' :: ds := by
  induction cs with
  | nil => exact insertMark_of_starter fun d hd => by rw [← Option.some.inj hd, combiningClass_stop]
  | cons d cs ih =>
    rw [List.cons_append, insertMark, insertMark, ih]
    split_ifs <;> rfl

theorem orderMarks_append_stop (cs ds : List Char) :
    orderMarks (cs ++ '.' :: ds) = orderMarks cs ++ '.' :: orderMarks ds := by
  induction cs with
  | nil =>
    change insertMark '.' (orderMarks ds) = '.' :: orderMarks ds
    cases orderMarks ds with
    | nil => rfl
    | cons d ds => rw [insertMark, if_neg (by rw [combiningClass_stop]; omega)]
  | cons c cs ih =>
    rw [List.cons_append, orderMarks, List.foldr_cons, ← orderMarks, ih, insertMark_append_stop]
    rfl

/-- Behind a full stop characters are joined as they are at the beginning. -/
inductive Behind (front : List Char) : Cluster → Cluster → Prop
  | fresh (marks : List Char) : Behind front ⟨front, some '.', marks⟩ ⟨[], none, marks⟩
  | begun (finished : List Char) (base : Option Char) (marks : List Char) :
      Behind front ⟨front ++ '.' :: finished, base, marks⟩ ⟨finished, base, marks⟩

variable {front : List Char} {k k' : Cluster}

theorem Behind.text (h : Behind front k k') : k.text = front ++ '.' :: k'.text := by
  cases h <;> simp [Cluster.text]

theorem Behind.push (h : Behind front k k') (c : Char) : Behind front (k.push c) (k'.push c) := by
  have htext := h.text
  cases h with
  | fresh marks =>
    have hjoined : Cluster.joined? ⟨front, some '.', marks⟩ c = none := by
      rw [Cluster.joined?, Option.bind_some, compound?_stop]
      exact ite_self none
    have hjoined' : Cluster.joined? ⟨[], none, marks⟩ c = none := by
      rw [Cluster.joined?, Option.bind_none]
      exact ite_self none
    rw [Cluster.push, hjoined, Cluster.push, hjoined']
    dsimp only
    split_ifs
    · rw [htext]
      exact .begun _ _ _
    · exact .fresh _
  | begun finished base marks =>
    have hjoined : Cluster.joined? ⟨front ++ '.' :: finished, base, marks⟩ c =
        Cluster.joined? ⟨finished, base, marks⟩ c := rfl
    rw [Cluster.push, hjoined, Cluster.push]
    cases Cluster.joined? ⟨finished, base, marks⟩ c with
    | some d => exact .begun _ _ _
    | none =>
      dsimp only
      split_ifs
      · rw [htext]
        exact .begun _ _ _
      · exact .begun _ _ _

theorem Behind.foldl_push (h : Behind front k k') (cs : List Char) :
    Behind front (cs.foldl Cluster.push k) (cs.foldl Cluster.push k') := by
  induction cs generalizing k k' with
  | nil => exact h
  | cons c cs ih => exact ih (h.push c)

/-- A full stop keeps what precedes it apart from what follows it. -/
theorem compose_append_stop (cs ds : List Char) :
    compose (cs ++ '.' :: ds) = compose cs ++ '.' :: compose ds := by
  have hstop : decompose '.' = ['.'] := decompose_of_lt (by decide)
  have hpush : ∀ k : Cluster, k.push '.' = ⟨k.text, some '.', []⟩ := by
    intro k
    rw [Cluster.push, k.joined?_of_lt (by decide)]
    exact if_pos combiningClass_stop
  rw [compose, List.flatMap_append, List.flatMap_cons, hstop, List.singleton_append,
    orderMarks_append_stop, List.foldl_append, List.foldl_cons, hpush]
  exact ((Behind.fresh []).foldl_push _).text

theorem shared_ne_stop : Shared (· ≠ '.') where
  parts h _ := ne_stop_of_parts? h
  compound {a b c} h _ _ := by
    rintro rfl
    have hparts := parts?_of_compound? h
    rw [parts?, if_pos (by decide)] at hparts
    cases hparts

theorem stop_notMem_compose (h : '.' ∉ cs) : '.' ∉ compose cs := fun hmem =>
  shared_ne_stop.compose (fun _ hc heq => h (heq ▸ hc)) '.' hmem rfl

/-- The labels of a composed text are composed. -/
theorem compose_of_intercalate {pieces : List (List Char)} (hstop : ∀ piece ∈ pieces, '.' ∉ piece)
    (h : compose (['.'].intercalate pieces) = ['.'].intercalate pieces) :
    ∀ piece ∈ pieces, compose piece = piece := by
  induction pieces with
  | nil => nofun
  | cons piece pieces ih =>
    obtain ⟨hpiece, hpieces⟩ := List.forall_mem_cons.1 hstop
    cases pieces with
    | nil => simpa using h
    | cons next pieces =>
      rw [List.intercalate_cons_cons, List.append_assoc, List.singleton_append,
        compose_append_stop] at h
      have hcut := congrArg (cutFirst '.') h
      rw [cutFirst_append (stop_notMem_compose hpiece), cutFirst_append hpiece] at hcut
      obtain ⟨hfirst, hrest⟩ := Prod.mk.inj hcut
      exact List.forall_mem_cons.2 ⟨hfirst, ih hpieces (Option.some.inj hrest)⟩

end PodCache.Text
