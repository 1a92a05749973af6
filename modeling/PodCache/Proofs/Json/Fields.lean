import Mathlib.Data.List.Forall2
import PodCache.Json.Fields
import PodCache.Proofs.Json.Strings

/-!
# The members of JSON objects

A field of a record is a member that comes at most once (`Field`).  Reading the fields of an object
gives them if all its names stand for texts, and nothing otherwise (`fields?_object_iff`).
-/

namespace PodCache.Json.Tree

variable {ms front back : List (Bytes × Tree)} {m : Bytes × Tree} {name : String} {t : Tree}
  {raw : Bytes}

/-- A string that stands for a text. -/
def Says (t : Tree) (s : String) : Prop := ∃ raw, t = .string raw ∧ Denotes raw s.toList

theorem string?_eq_some_iff {s : String} : t.string? = some s ↔ t.Says s := by
  cases t with
  | string raw =>
    refine unquote?_eq_some_iff.trans ⟨fun h => ⟨raw, rfl, h⟩, ?_⟩
    rintro ⟨_, ⟨⟩, h⟩
    exact h
  | _ => exact ⟨nofun, by rintro ⟨_, ⟨⟩, _⟩⟩

theorem says_unique {s s' : String} (h : t.Says s) (h' : t.Says s') : s = s' :=
  Option.some.inj ((string?_eq_some_iff.2 h).symm.trans (string?_eq_some_iff.2 h'))

/-! ## Members of a name -/

/-- All names stand for texts. -/
def Texts (ms : List (Bytes × Tree)) : Prop := ∀ m ∈ ms, ∃ name : String, Denotes m.1 name.toList

/-- No member has the name. -/
def Never (ms : List (Bytes × Tree)) (name : String) : Prop :=
  ∀ m ∈ ms, ¬ Denotes m.1 name.toList

/-- What the member of a name holds, if there is one, when there is no second one. -/
inductive Field : List (Bytes × Tree) → String → Option Tree → Prop
  | missing {ms : List (Bytes × Tree)} {name : String} (h : Never ms name) : Field ms name none
  | once {front back : List (Bytes × Tree)} {raw : Bytes} {name : String} {t : Tree}
      (hf : Never front name) (hn : Denotes raw name.toList) (hb : Never back name) :
      Field (front ++ (raw, t) :: back) name (some t)

/-- What the members of a name hold. -/
def held (ms : List (Bytes × Tree)) (name : String) : List Tree :=
  (ms.filter fun m => unquote? m.1 == some name).map Prod.snd

theorem held_append (front back : List (Bytes × Tree)) (name : String) :
    held (front ++ back) name = held front name ++ held back name := by
  rw [held, List.filter_append, List.map_append]
  rfl

theorem held_cons (h : Denotes raw name.toList) (t : Tree) (ms : List (Bytes × Tree)) :
    held ((raw, t) :: ms) name = t :: held ms name := by
  rw [held, List.filter_cons_of_pos (by simpa using unquote?_eq_some_iff.2 h)]
  rfl

theorem held_cons_of_not (h : ¬ Denotes m.1 name.toList) (ms : List (Bytes × Tree)) :
    held (m :: ms) name = held ms name := by
  rw [held, List.filter_cons_of_neg (by simpa using mt unquote?_eq_some_iff.1 h)]
  rfl

theorem held_eq_nil_iff : held ms name = [] ↔ Never ms name := by
  simp only [held, List.map_eq_nil_iff, List.filter_eq_nil_iff, beq_iff_eq, unquote?_eq_some_iff]
  rfl

theorem mem_held_iff : t ∈ held ms name ↔ ∃ raw, (raw, t) ∈ ms ∧ Denotes raw name.toList := by
  simp only [held, List.mem_map, List.mem_filter, beq_iff_eq, unquote?_eq_some_iff, Prod.exists,
    exists_eq_right]

theorem field_iff {field : Option Tree} : Field ms name field ↔ held ms name = field.toList := by
  constructor
  · rintro (h | ⟨hf, hn, hb⟩)
    · exact held_eq_nil_iff.2 h
    · rw [held_append, held_cons hn, held_eq_nil_iff.2 hf, held_eq_nil_iff.2 hb]
      rfl
  · intro h
    cases field with
    | none => exact .missing (held_eq_nil_iff.1 h)
    | some t =>
      obtain ⟨m, hm, rfl⟩ := List.map_eq_singleton_iff.1 h
      obtain ⟨front, back, rfl, hf, hn, hb⟩ := List.filter_eq_cons_iff.1 hm
      refine .once (fun m hm => ?_) (unquote?_eq_some_iff.1 (beq_iff_eq.1 hn)) fun m hm => ?_
      · exact fun h => hf m hm (beq_iff_eq.2 (unquote?_eq_some_iff.2 h))
      · exact fun h => List.filter_eq_nil_iff.1 hb m hm (beq_iff_eq.2 (unquote?_eq_some_iff.2 h))

theorem Field.perm {ms' : List (Bytes × Tree)} {field : Option Tree} (h : Field ms name field)
    (hp : ms.Perm ms') : Field ms' name field := by
  have hheld : (held ms name).Perm (held ms' name) := (hp.filter _).map _
  rw [field_iff.1 h] at hheld
  rw [field_iff]
  cases field with
  | none => exact List.nil_perm.1 hheld
  | some t => exact (List.singleton_perm.1 hheld).symm

/-! ## Reading members -/

theorem mapM_eq_some_iff {α β : Type} {f : α → Option β} {R : α → β → Prop}
    (hR : ∀ a b, f a = some b ↔ R a b) {l : List α} {l' : List β} :
    l.mapM f = some l' ↔ List.Forall₂ R l l' := by
  induction l generalizing l' with
  | nil => simp [eq_comm]
  | cons a l ih =>
    cases l' with
    | nil => simp [List.mapM_cons, Option.bind_eq_some_iff]
    | cons b l' => simp [List.mapM_cons, Option.bind_eq_some_iff, ih, hR]

/-- A member and its name as a text. -/
def Reads (m : Bytes × Tree) (n : String × Tree) : Prop := unquote? m.1 = some n.1 ∧ m.2 = n.2

theorem namedMembers?_eq_some_iff {named : List (String × Tree)} :
    namedMembers? ms = some named ↔ List.Forall₂ Reads ms named := by
  refine mapM_eq_some_iff fun m n => ?_
  rw [Option.map_eq_some_iff]
  constructor
  · rintro ⟨name, h, rfl⟩
    exact ⟨h, rfl⟩
  · rintro ⟨h, ht⟩
    exact ⟨n.1, h, by rw [ht]⟩

theorem exists_namedMembers?_iff : (∃ named, namedMembers? ms = some named) ↔ Texts ms := by
  simp only [namedMembers?_eq_some_iff]
  induction ms with
  | nil => exact ⟨fun _ => nofun, fun _ => ⟨[], .nil⟩⟩
  | cons m ms ih =>
    rw [Texts, List.forall_mem_cons, ← Texts, ← ih]
    constructor
    · rintro ⟨_, _ | ⟨h, hs⟩⟩
      exact ⟨⟨_, unquote?_eq_some_iff.1 h.1⟩, _, hs⟩
    · rintro ⟨⟨name, h⟩, named, hs⟩
      exact ⟨(name, m.2) :: named, .cons ⟨unquote?_eq_some_iff.2 h, rfl⟩ hs⟩

theorem atMostOnce?_eq_some_iff {named : List (String × Tree)} (h : List.Forall₂ Reads ms named)
    {field : Option Tree} : atMostOnce? named name = some field ↔ Field ms name field := by
  have hheld : (named.filter fun m => m.1 == name).map Prod.snd = held ms name := by
    induction h with
    | nil => rfl
    | @cons m n ms named hm _ ih =>
      by_cases hn : n.1 = name
      · rw [List.filter_cons_of_pos (by simpa using hn), List.map_cons, ih, ← hm.2]
        exact (held_cons (unquote?_eq_some_iff.1 (hn ▸ hm.1)) m.2 ms).symm
      · rw [List.filter_cons_of_neg (by simpa using hn), ih, held_cons_of_not]
        intro hd
        exact hn (Option.some.inj (hm.1.symm.trans (unquote?_eq_some_iff.2 hd)))
  rw [field_iff, ← hheld, atMostOnce?]
  generalize (named.filter fun m => m.1 == name) = found
  rcases found with _ | ⟨m, _ | ⟨m', found⟩⟩ <;> cases field <;> simp

theorem fields?_object_iff {names : List String} {fields : List (Option Tree)} :
    fields? names (.object ms) = some fields ↔ Texts ms ∧ List.Forall₂ (Field ms) names fields := by
  have hfields : ∀ named, namedMembers? ms = some named →
      (names.mapM (atMostOnce? named) = some fields ↔ List.Forall₂ (Field ms) names fields) :=
    fun named h => mapM_eq_some_iff fun _ _ =>
      atMostOnce?_eq_some_iff (namedMembers?_eq_some_iff.1 h)
  rw [fields?, Option.bind_eq_bind, Option.bind_eq_some_iff, ← exists_namedMembers?_iff]
  constructor
  · rintro ⟨named, h, hf⟩
    exact ⟨⟨named, h⟩, (hfields named h).1 hf⟩
  · rintro ⟨⟨named, h⟩, hf⟩
    exact ⟨named, h, (hfields named h).2 hf⟩

end PodCache.Json.Tree
