import Mathlib.Tactic
import PodCache.Codec.Json
import PodCache.Proofs.Json.Grammar
import PodCache.Proofs.Json.Integers

/-!
# Shapes that read themselves back

A shape is lawful when the text of every value spells a tree that is read as the value.  By the
grammar of JSON it is enough to give that tree (`Shape.Lawful`); the text is then read back, and it
is not empty (`Lawful.render_ne_nil`).
-/

namespace PodCache.Json

open Ascii Text

/-! ## Texts of values -/

theorem spelled_quote (s : String) :
    (Token.string (s.toList.flatMap escapeChar)).Spelled (quote s) :=
  .string (scanString_eq_some_iff.1 (scanString_flatMap_escapeChar s.toList [])).1

/-- A value without white space around it. -/
theorem Piece.Spelled.bare {bytes : Bytes} {t : Tree} (h : Piece.Spelled bytes (.value t)) :
    t.Spelled bytes := by
  simpa [Tree.Spelled] using Piece.Spelled.element blank_nil h blank_nil

/-- An element in front of others. -/
theorem Piece.Spelled.elements_cons {front bytes : Bytes} {t : Tree} {ts : List Tree}
    (h : t.Spelled front) (hs : Piece.Spelled bytes (.elements ts)) :
    Piece.Spelled (front ++ comma :: bytes) (.elements (t :: ts)) := by
  generalize hp : Piece.elements ts = p at hs
  induction hs generalizing ts with
  | first hlast =>
    cases hp
    exact .next (.first h) hlast
  | next _ hlast ih =>
    cases hp
    have hfront := ih rfl
    rw [← List.cons_append, ← List.cons_append, ← List.append_assoc]
    exact .next hfront hlast
  | _ => cases hp

namespace Shape

/-- The text of every value spells a tree that is read as the value. -/
def Lawful {V : Type} (shape : Shape V) : Prop :=
  ∀ v, ∃ t, Piece.Spelled (shape.toValue v).render (.value t) ∧ shape.ofTree? t = some v

variable {V : Type} {shape : Shape V}

theorem Lawful.read?_render (h : shape.Lawful) (v : V) :
    (Tree.read? (shape.toValue v).render).bind shape.ofTree? = some v := by
  obtain ⟨t, ht, hv⟩ := h v
  rw [read?_eq_some_iff.2 ht.bare]
  exact hv

theorem Lawful.render_ne_nil (h : shape.Lawful) (v : V) : (shape.toValue v).render ≠ [] := by
  intro hnil
  have hread := h.read?_render v
  rw [hnil, Tree.read?, Token.scan] at hread
  cases hread

/-! ## Plain values -/

theorem lawful_string : string.Lawful := fun s =>
  ⟨.string _, .leaf (spelled_quote s) rfl, unquote?_flatMap_escapeChar s⟩

theorem lawful_bool : bool.Lawful
  | true => ⟨.bool true, .leaf .true rfl, rfl⟩
  | false => ⟨.bool false, .leaf .false rfl, rfl⟩

theorem spelled_number (n : Int) :
    Piece.Spelled (Value.number (.int n)).render (.value (.number (numeral n))) :=
  .leaf (.number (spelled_int n)) rfl

theorem lawful_word : word.Lawful := by
  intro n
  refine ⟨.number (numeral n.toNat), spelled_number n.toNat, ?_⟩
  have hlt := n.toNat_lt
  change (Tree.int? _).bind _ = _
  rw [Tree.int?, int?_numeral (by omega) (by omega), Option.bind_some, if_pos (by omega),
    Int.toNat_natCast, UInt64.ofNat_toNat]

theorem lawful_long : long.Lawful := by
  intro n
  refine ⟨.number (numeral n.toInt), spelled_number n.toInt, ?_⟩
  have hle := n.le_toInt
  have hlt := n.toInt_lt
  change (Tree.int? _).bind _ = _
  rw [Tree.int?, int?_numeral (by omega) (by omega), Option.bind_some, if_pos (by omega),
    Int64.ofInt_toInt]

theorem lawful_short : short.Lawful := by
  intro n
  refine ⟨.number (numeral n.toInt), spelled_number n.toInt, ?_⟩
  have hle := n.le_toInt
  have hlt := n.toInt_lt
  change (Tree.int? _).bind _ = _
  rw [Tree.int?, int?_numeral (by omega) (by omega), Option.bind_some, if_pos (by omega),
    Int32.ofInt_toInt]

/-! ## Compound values -/

theorem lawful_optionalString : optionalString.Lawful
  | none => ⟨.null, .leaf .null rfl, rfl⟩
  | some s =>
    ⟨.string _, .leaf (spelled_quote s) rfl,
      congrArg (Option.map some) (unquote?_flatMap_escapeChar s)⟩

theorem Lawful.spelled_items (h : shape.Lawful) {vs : List V} (hvs : vs ≠ []) :
    ∃ ts, Piece.Spelled (Value.renderItems (vs.map shape.toValue)) (.elements ts) ∧
      ts.mapM shape.ofTree? = some vs := by
  induction vs with
  | nil => exact absurd rfl hvs
  | cons v vs ih =>
    obtain ⟨t, ht, hv⟩ := h v
    cases vs with
    | nil => exact ⟨[t], .first ht.bare, by simp [hv]⟩
    | cons w vs =>
      obtain ⟨ts, hts, hws⟩ := ih nofun
      exact ⟨t :: ts, Piece.Spelled.elements_cons ht.bare hts, by simp [hv, hws]⟩

theorem Lawful.list (h : shape.Lawful) : (list shape).Lawful
  | [] => ⟨.array [], .emptyArray blank_nil, rfl⟩
  | v :: vs => by
    obtain ⟨ts, hts, hvs⟩ := h.spelled_items (List.cons_ne_nil v vs)
    exact ⟨.array ts, .array hts, hvs⟩

theorem spelled_member {name : String} {bytes : Bytes} {t : Tree} (h : t.Spelled bytes) :
    Piece.Spelled (quote name ++ colon :: bytes)
      (.member (name.toList.flatMap escapeChar, t)) := by
  simpa using Piece.Spelled.member blank_nil (spelled_quote name) blank_nil h

theorem fields?_pair {a b : String} (hab : a ≠ b) (t u : Tree) :
    Tree.fields? [a, b]
      (.object [(a.toList.flatMap escapeChar, t), (b.toList.flatMap escapeChar, u)]) =
      some [some t, some u] := by
  have hnamed : Tree.namedMembers?
      [(a.toList.flatMap escapeChar, t), (b.toList.flatMap escapeChar, u)] =
        some [(a, t), (b, u)] := by
    simp [Tree.namedMembers?, unquote?_flatMap_escapeChar]
  rw [Tree.fields?, hnamed]
  simp [Tree.atMostOnce?, hab, hab.symm]

theorem lawful_user : user.Lawful := by
  rintro ⟨id, name⟩
  obtain ⟨tid, htid, hid⟩ := lawful_word id
  obtain ⟨tname, htname, hname⟩ := lawful_string name
  refine ⟨_, .object (.nextMember (.firstMember (spelled_member htid.bare))
    (spelled_member htname.bare)), ?_⟩
  simp only [user, List.singleton_append, fields?_pair (show "id" ≠ "name" by decide)]
  change (tid.word?).bind _ = _
  rw [show tid.word? = some id from hid, Option.bind_some]
  change (tname.string?).bind _ = _
  rw [show tname.string? = some name from hname]
  rfl

end Shape

end PodCache.Json
