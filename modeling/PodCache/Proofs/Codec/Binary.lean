import Mathlib.Tactic
import PodCache.Codec.Binary
import PodCache.Proofs.Text.Utf8

/-!
# Layouts that read themselves back

A layout is lawful when it reads back what it puts, whatever follows, and when octets that follow
never change what it reads.  So nothing that it puts begins with another thing that it reads
(`Lawful.take_of_prefix`).  The layouts of numbers and truth values are lawful, and layouts of
texts, lists, optional values and records are lawful when those of their parts are.
-/

namespace PodCache

namespace Binary

/-! ## Words -/

theorem takeWord_putWord (width : Nat) {n : Nat} (h : n < 256 ^ width) (rest : Bytes) :
    takeWord width (putWord width n ++ rest) = some (n, rest) := by
  induction width generalizing n with
  | zero =>
    obtain rfl : n = 0 := by simpa using h
    rfl
  | succ width ih =>
    have hn : n / 256 < 256 ^ width := by
      rw [pow_succ] at h
      omega
    rw [putWord, List.cons_append, takeWord, ih hn, Option.map_some,
      Text.Utf8.toNat_ofNat_of_lt (by omega)]
    congr 2
    omega

theorem takeWord_append {width n : Nat} {bytes rest : Bytes}
    (h : takeWord width bytes = some (n, rest)) (more : Bytes) :
    takeWord width (bytes ++ more) = some (n, rest ++ more) := by
  induction width generalizing n bytes with
  | zero =>
    obtain ⟨rfl, rfl⟩ := Prod.mk.inj (Option.some.inj h)
    rfl
  | succ width ih =>
    cases bytes with
    | nil => cases h
    | cons b bytes =>
      obtain ⟨⟨high, rest'⟩, hhigh, he⟩ := Option.map_eq_some_iff.1 h
      obtain ⟨rfl, rfl⟩ := Prod.mk.inj he
      rw [List.cons_append, takeWord, ih hhigh]
      rfl

namespace Format

/-- A layout of the values that fit. -/
structure Lawful {V : Type} (format : Format V) (fits : V → Prop) : Prop where
  /-- What has been put is taken off again. -/
  take_put : ∀ v rest, fits v → format.take (format.put v ++ rest) = some (v, rest)
  /-- What follows a value is left alone. -/
  take_append : ∀ bytes v rest more, format.take bytes = some (v, rest) →
    format.take (bytes ++ more) = some (v, rest ++ more)
  /-- Every value takes up some room. -/
  put_ne_nil : ∀ v, format.put v ≠ []

variable {V : Type} {format : Format V} {fits : V → Prop}

/-- Less than the whole of a value is not read at all. -/
theorem Lawful.take_of_prefix (h : format.Lawful fits) {v : V} (hv : fits v) {front back : Bytes}
    (hput : format.put v = front ++ back) (hback : back ≠ []) : format.take front = none := by
  rw [Option.eq_none_iff_forall_ne_some]
  rintro ⟨w, rest⟩ hfront
  have hwhole := h.take_put v [] hv
  rw [List.append_nil, hput, h.take_append front w rest back hfront] at hwhole
  obtain ⟨-, hnil⟩ := Prod.mk.inj (Option.some.inj hwhole)
  exact hback (List.append_eq_nil_iff.1 hnil).2

/-! ## Numbers and truth values -/

theorem putWord_ne_nil (width n : Nat) : putWord (width + 1) n ≠ [] := nofun

/-- A number in a word of a fixed width. -/
theorem lawful_of_word {width : Nat} {α : Type} (toNat : α → Nat) (ofNat : Nat → α)
    (hlt : ∀ a, toNat a < 256 ^ (width + 1)) (hinv : ∀ a, ofNat (toNat a) = a) :
    Lawful ⟨fun a => putWord (width + 1) (toNat a),
      fun bytes => (takeWord (width + 1) bytes).map fun r => (ofNat r.1, r.2)⟩
      fun _ => True where
  take_put a rest _ := by
    dsimp only
    rw [takeWord_putWord _ (hlt a), Option.map_some, hinv]
  take_append bytes a rest more h := by
    obtain ⟨⟨n, rest'⟩, hn, he⟩ := Option.map_eq_some_iff.1 h
    obtain ⟨rfl, rfl⟩ := Prod.mk.inj he
    dsimp only
    rw [takeWord_append hn]
    rfl
  put_ne_nil _ := putWord_ne_nil _ _

theorem lawful_word : word.Lawful fun _ => True :=
  lawful_of_word UInt64.toNat UInt64.ofNat (fun n => n.toNat_lt) fun _ => UInt64.ofNat_toNat

theorem lawful_long : long.Lawful fun _ => True :=
  lawful_of_word (fun n : Int64 => n.toUInt64.toNat) (fun n => (UInt64.ofNat n).toInt64)
    (fun n => n.toUInt64.toNat_lt) fun n => by rw [UInt64.ofNat_toNat]; rfl

theorem lawful_short : short.Lawful fun _ => True :=
  lawful_of_word (fun n : Int32 => n.toUInt32.toNat) (fun n => (UInt32.ofNat n).toInt32)
    (fun n => n.toUInt32.toNat_lt) fun n => by rw [UInt32.ofNat_toNat]; rfl

theorem lawful_bool : bool.Lawful fun _ => True where
  take_put b rest _ := by cases b <;> rfl
  take_append bytes b rest more h := by
    unfold bool at h ⊢
    dsimp only at h
    split at h
    · obtain ⟨rfl, rfl⟩ := Prod.mk.inj (Option.some.inj h)
      rfl
    · obtain ⟨rfl, rfl⟩ := Prod.mk.inj (Option.some.inj h)
      rfl
    · cases h
  put_ne_nil _ := nofun

/-! ## Texts -/

/-- The length of a text is a word. -/
def TextFits (s : String) : Prop := (Bytes.ofText s).length < 2 ^ 64

theorem lawful_string : string.Lawful TextFits where
  take_put s rest hs := by
    have hlength := takeWord_putWord 8 hs (Bytes.ofText s ++ rest)
    unfold string
    dsimp only
    rw [List.append_assoc, hlength]
    simp only [Option.bind_eq_bind, Option.bind_some]
    rw [if_pos (by simp), List.take_left, List.drop_left, Bytes.text?_ofText]
    rfl
  take_append bytes s rest more h := by
    unfold string at h ⊢
    obtain ⟨⟨length, tail⟩, hlength, h⟩ := Option.bind_eq_some_iff.1 h
    dsimp only at h ⊢
    split_ifs at h with hle
    obtain ⟨text, htext, h⟩ := Option.bind_eq_some_iff.1 h
    obtain ⟨rfl, rfl⟩ := Prod.mk.inj (Option.some.inj h)
    rw [takeWord_append hlength]
    simp only [Option.bind_eq_bind, Option.bind_some]
    rw [if_pos (by rw [List.length_append]; omega), List.take_append_of_le_length hle, htext,
      List.drop_append_of_le_length hle]
    rfl
  put_ne_nil s := by
    rw [Ne, string, List.append_eq_nil_iff]
    exact fun h => putWord_ne_nil _ _ h.1

/-! ## Compound values -/

theorem Lawful.optional (h : format.Lawful fits) :
    (optional format).Lawful fun v => ∀ x ∈ v, fits x where
  take_put v rest hv := by
    cases v with
    | none => rfl
    | some x =>
      change (format.take (format.put x ++ rest)).map _ = _
      rw [h.take_put x rest (hv x rfl)]
      rfl
  take_append bytes v rest more ht := by
    unfold Format.optional at ht ⊢
    dsimp only at ht
    split at ht
    · obtain ⟨rfl, rfl⟩ := Prod.mk.inj (Option.some.inj ht)
      rfl
    · obtain ⟨⟨x, rest'⟩, hx, he⟩ := Option.map_eq_some_iff.1 ht
      obtain ⟨rfl, rfl⟩ := Prod.mk.inj he
      change (format.take (_ ++ more)).map _ = _
      rw [h.take_append _ x rest' more hx]
      rfl
    · cases ht
  put_ne_nil v := by cases v <;> nofun

theorem Lawful.takeMany_put (h : format.Lawful fits) {vs : List V} (hvs : ∀ v ∈ vs, fits v)
    (rest : Bytes) :
    takeMany format vs.length (vs.flatMap format.put ++ rest) = some (vs, rest) := by
  induction vs with
  | nil => rfl
  | cons v vs ih =>
    obtain ⟨hv, hvs⟩ := List.forall_mem_cons.1 hvs
    rw [List.length_cons, takeMany, List.flatMap_cons, List.append_assoc, h.take_put v _ hv]
    simp only [Option.bind_eq_bind, Option.bind_some, ih hvs, Option.pure_def]

theorem Lawful.takeMany_append (h : format.Lawful fits) {n : Nat} {bytes rest : Bytes}
    {vs : List V} (ht : takeMany format n bytes = some (vs, rest)) (more : Bytes) :
    takeMany format n (bytes ++ more) = some (vs, rest ++ more) := by
  induction n generalizing bytes vs with
  | zero =>
    obtain ⟨rfl, rfl⟩ := Prod.mk.inj (Option.some.inj ht)
    rfl
  | succ n ih =>
    obtain ⟨⟨v, tail⟩, hv, ht⟩ := Option.bind_eq_some_iff.1 ht
    obtain ⟨⟨vs', tail'⟩, hvs, ht⟩ := Option.bind_eq_some_iff.1 ht
    obtain ⟨rfl, rfl⟩ := Prod.mk.inj (Option.some.inj ht)
    rw [takeMany, h.take_append bytes v tail more hv]
    simp only [Option.bind_eq_bind, Option.bind_some, ih hvs, Option.pure_def]

/-- The length of a list is a word, and its items fit. -/
def ListFits (fits : V → Prop) (vs : List V) : Prop := vs.length < 2 ^ 64 ∧ ∀ v ∈ vs, fits v

theorem Lawful.list (h : format.Lawful fits) : (list format).Lawful (ListFits fits) where
  take_put vs rest hvs := by
    have hlength := takeWord_putWord 8 hvs.1 (vs.flatMap format.put ++ rest)
    unfold Format.list
    dsimp only
    rw [List.append_assoc, hlength]
    exact h.takeMany_put hvs.2 rest
  take_append bytes vs rest more ht := by
    obtain ⟨⟨length, tail⟩, hlength, ht⟩ := Option.bind_eq_some_iff.1 ht
    unfold Format.list
    dsimp only
    rw [takeWord_append hlength]
    exact h.takeMany_append ht more
  put_ne_nil vs := by
    rw [Ne, Format.list, List.append_eq_nil_iff]
    exact fun h => putWord_ne_nil _ _ h.1

theorem lawful_user : user.Lawful fun u => TextFits u.name where
  take_put u rest hu := by
    unfold user
    dsimp only
    rw [List.append_assoc, lawful_word.take_put u.id _ trivial]
    simp only [Option.bind_eq_bind, Option.bind_some, lawful_string.take_put u.name rest hu,
      Option.pure_def]
  take_append bytes u rest more h := by
    obtain ⟨⟨id, tail⟩, hid, h⟩ := Option.bind_eq_some_iff.1 h
    obtain ⟨⟨name, tail'⟩, hname, h⟩ := Option.bind_eq_some_iff.1 h
    obtain ⟨rfl, rfl⟩ := Prod.mk.inj (Option.some.inj h)
    unfold user
    dsimp only
    rw [lawful_word.take_append bytes id tail more hid]
    simp only [Option.bind_eq_bind, Option.bind_some, lawful_string.take_append _ _ _ more hname,
      Option.pure_def]
  put_ne_nil u := by
    rw [Ne, user, List.append_eq_nil_iff]
    exact fun h => lawful_word.put_ne_nil _ h.1

end Format

end Binary

end PodCache
