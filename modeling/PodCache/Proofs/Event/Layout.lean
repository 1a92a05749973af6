import PodCache.Proofs.Event.Contents

/-!
# The layout of events

Decoding depends on the fields alone (`decode_by_fields`): texts that are laid out otherwise
(`Relaid`) decode alike, and a text whose fields are at fault (`Faulty`) is refused.
-/

namespace PodCache.Event

open Json
open PodCache.Json.Tree (Texts Never Field held)

variable {t u : Tree} {c : Contents} {ms ms' : List (Bytes × Tree)} {name : String}

/-! ## Other layouts -/

/-- The same tree, or strings that stand for the same text. -/
inductive Alike : Tree → Tree → Prop
  | refl (t : Tree) : Alike t t
  | text {t u : Tree} {s : String} (ht : t.Says s) (hu : u.Says s) : Alike t u

/-- The same member but for the spelling of the name and the text. -/
structure Respelt (m m' : Bytes × Tree) : Prop where
  name : ∃ name : String, Denotes m.1 name.toList ∧ Denotes m'.1 name.toList
  alike : Alike m.2 m'.2

/-- The known fields are laid out otherwise: the members of an object in another order or beside
other members, and names and texts in another spelling. -/
inductive Relaid : Tree → Tree → Prop
  | refl (t : Tree) : Relaid t t
  | symm {t u : Tree} (h : Relaid t u) : Relaid u t
  | trans {t u v : Tree} (h : Relaid t u) (h' : Relaid u v) : Relaid t v
  | reorder {ms ms' : List (Bytes × Tree)} (h : ms.Perm ms') : Relaid (.object ms) (.object ms')
  | insert {raw : Bytes} {name : String} (hn : Denotes raw name.toList) (hu : name ∉ fieldNames)
      (front back : List (Bytes × Tree)) (t : Tree) :
      Relaid (.object (front ++ back)) (.object (front ++ (raw, t) :: back))
  | respell {ms ms' : List (Bytes × Tree)} (h : List.Forall₂ Respelt ms ms') :
      Relaid (.object ms) (.object ms')
  | respellItems {ts us : List Tree} (h : List.Forall₂ Alike ts us) :
      Relaid (.array ts) (.array us)

theorem Alike.symm (h : Alike t u) : Alike u t := by
  cases h with
  | refl => exact .refl t
  | text ht hu => exact .text hu ht

theorem Alike.says_of (h : Alike t u) {s : String} (ht : t.Says s) : u.Says s := by
  cases h with
  | refl => exact ht
  | text ht' hu => exact Tree.says_unique ht ht' ▸ hu

theorem Alike.told (h : Alike t u) {s : Option String} (ht : Told (some t) s) :
    Told (some u) s := by
  cases h with
  | refl => exact ht
  | text ht' hu =>
    obtain rfl := ht.unique (.text ht')
    exact .text hu

theorem Respelt.symm {m m' : Bytes × Tree} (h : Respelt m m') : Respelt m' m := by
  obtain ⟨⟨name, hn, hn'⟩, ha⟩ := h
  exact ⟨⟨name, hn', hn⟩, ha.symm⟩

theorem Told.alike {field field' : Option Tree} (h : Option.Rel Alike field field')
    {s : Option String} (ht : Told field s) : Told field' s := by
  cases h with
  | none => exact ht
  | some ha => exact ha.told ht

/-- Members tell what others tell if they hold alike fields. -/
theorem Members.of_alike (h : ∀ name ∈ fieldNames, ∀ field, Field ms name field →
      ∃ field', Field ms' name field' ∧ Option.Rel Alike field field')
    (hm : Members ms c) : Members ms' c := by
  have required : ∀ name ∈ fieldNames, ∀ {s : String}, (∃ t, Field ms name (some t) ∧ t.Says s) →
      ∃ t, Field ms' name (some t) ∧ t.Says s := by
    rintro name hname s ⟨t, hf, hs⟩
    obtain ⟨_, hf', ⟨ha⟩⟩ := h name hname _ hf
    exact ⟨_, hf', ha.says_of hs⟩
  obtain ⟨field, hf, hv⟩ := hm.value
  obtain ⟨field', hf', ha⟩ := h "value" (by decide) field hf
  exact ⟨required _ (by decide) hm.key, required _ (by decide) hm.sender,
    required _ (by decide) hm.action, field', hf', hv.alike ha⟩

theorem optionRel_refl (field : Option Tree) : Option.Rel Alike field field := by
  cases field with
  | none => exact .none
  | some t => exact .some (.refl t)

theorem Members.perm (h : Members ms c) (hp : ms.Perm ms') : Members ms' c :=
  h.of_alike fun _ _ field hf => ⟨field, hf.perm hp, optionRel_refl field⟩

theorem texts_of_perm (h : Texts ms) (hp : ms.Perm ms') : Texts ms' :=
  fun m hm => h m (hp.mem_iff.2 hm)

/-! ### Other members -/

/-- A member whose name stands for no text is none of the fields. -/
theorem Members.append_unnamed {raw : Bytes} (hn : ∀ name : String, ¬ Denotes raw name.toList)
    (h : Members ms c) (t : Tree) : Members (ms ++ [(raw, t)]) c := by
  refine h.of_alike fun name _ field hf => ⟨field, ?_, optionRel_refl field⟩
  rw [Tree.field_iff, Tree.held_append, Tree.held_cons_of_not (hn name), ← Tree.field_iff.1 hf]
  exact List.append_nil _

theorem held_insert {raw : Bytes} {other : String} (hn : Denotes raw other.toList)
    (hu : other ∉ fieldNames) (front back : List (Bytes × Tree)) (t : Tree)
    (hname : name ∈ fieldNames) :
    held (front ++ (raw, t) :: back) name = held (front ++ back) name := by
  have hne : ¬ Denotes raw name.toList := fun h => hu (denotes_unique hn h ▸ hname)
  rw [Tree.held_append, Tree.held_cons_of_not hne, ← Tree.held_append]

theorem tells_insert_iff {raw : Bytes} {other : String} (hn : Denotes raw other.toList)
    (hu : other ∉ fieldNames) (front back : List (Bytes × Tree)) (t : Tree) :
    Tells (.object (front ++ back)) c ↔ Tells (.object (front ++ (raw, t) :: back)) c := by
  have hfield : ∀ name ∈ fieldNames, ∀ field,
      Field (front ++ (raw, t) :: back) name field ↔ Field (front ++ back) name field := by
    intro name hname field
    rw [Tree.field_iff, Tree.field_iff, held_insert hn hu front back t hname]
  constructor
  · rintro (⟨hnames, hm⟩ | _ | _)
    refine .object (fun m hm => ?_) (hm.of_alike fun name hname field hf =>
      ⟨field, (hfield name hname field).2 hf, optionRel_refl field⟩)
    rcases List.mem_append.1 hm with hm | hm
    · exact hnames m (List.mem_append_left _ hm)
    · rcases List.mem_cons.1 hm with rfl | hm
      · exact ⟨other, hn⟩
      · exact hnames m (List.mem_append_right _ hm)
  · rintro (⟨hnames, hm⟩ | _ | _)
    refine .object (fun m hm => hnames m ?_) (hm.of_alike fun name hname field hf =>
      ⟨field, (hfield name hname field).1 hf, optionRel_refl field⟩)
    rcases List.mem_append.1 hm with hm | hm
    · exact List.mem_append_left _ hm
    · exact List.mem_append_right _ (List.mem_cons_of_mem _ hm)

/-! ### Other spellings -/

theorem held_respell (h : List.Forall₂ Respelt ms ms') (name : String) :
    List.Forall₂ Alike (held ms name) (held ms' name) := by
  induction h with
  | nil => exact .nil
  | @cons m m' ms ms' hm _ ih =>
    obtain ⟨other, hn, hn'⟩ := hm.name
    by_cases hname : Denotes m.1 name.toList
    · obtain rfl := denotes_unique hname hn
      rw [Tree.held_cons hname m.2, Tree.held_cons hn' m'.2]
      exact .cons hm.alike ih
    · have hname' : ¬ Denotes m'.1 name.toList := fun h =>
        hname (denotes_unique h hn' ▸ hn)
      rw [Tree.held_cons_of_not hname, Tree.held_cons_of_not hname']
      exact ih

theorem field_respell (h : List.Forall₂ Respelt ms ms') {field : Option Tree}
    (hf : Field ms name field) :
    ∃ field', Field ms' name field' ∧ Option.Rel Alike field field' := by
  have hheld := held_respell h name
  rw [Tree.field_iff.1 hf] at hheld
  cases field with
  | none => exact ⟨none, Tree.field_iff.2 (List.forall₂_nil_left_iff.1 hheld), .none⟩
  | some t =>
    obtain ⟨u, us, hu, hnil, hus⟩ := List.forall₂_cons_left_iff.1 hheld
    obtain rfl := List.forall₂_nil_left_iff.1 hnil
    exact ⟨some u, Tree.field_iff.2 hus, .some hu⟩

theorem texts_of_respelt (h : List.Forall₂ Respelt ms ms') : Texts ms' := by
  induction h with
  | nil => exact nofun
  | cons hm _ ih => exact List.forall_mem_cons.2 ⟨hm.name.imp fun _ hn => hn.2, ih⟩

theorem Tells.respell (ht : Tells (.object ms) c) (h : List.Forall₂ Respelt ms ms') :
    Tells (.object ms') c := by
  rcases ht with ⟨-, hm⟩ | _ | _
  exact .object (texts_of_respelt h) (hm.of_alike fun name _ field hf => field_respell h hf)

theorem Tells.respellItems {ts us : List Tree} (ht : Tells (.array ts) c)
    (h : List.Forall₂ Alike ts us) : Tells (.array us) c := by
  cases ht with
  | three hk hs ha hv =>
    obtain _ | ⟨h₁, _ | ⟨h₂, _ | ⟨h₃, ⟨⟩⟩⟩⟩ := h
    exact .three (h₁.says_of hk) (h₂.says_of hs) (h₃.says_of ha) hv
  | four hk hs ha hv =>
    obtain _ | ⟨h₁, _ | ⟨h₂, _ | ⟨h₃, _ | ⟨h₄, ⟨⟩⟩⟩⟩⟩ := h
    exact .four (h₁.says_of hk) (h₂.says_of hs) (h₃.says_of ha) (h₄.told hv)

/-- Fields that are laid out otherwise tell the same. -/
theorem Relaid.tells_iff (h : Relaid t u) : Tells t c ↔ Tells u c := by
  induction h with
  | refl => exact Iff.rfl
  | symm _ ih => exact ih.symm
  | trans _ _ ih ih' => exact ih.trans ih'
  | reorder h =>
    constructor
    · rintro (⟨hn, hm⟩ | _ | _)
      exact .object (texts_of_perm hn h) (hm.perm h)
    · rintro (⟨hn, hm⟩ | _ | _)
      exact .object (texts_of_perm hn h.symm) (hm.perm h.symm)
  | insert hn hu front back t => exact tells_insert_iff hn hu front back t
  | respell h =>
    exact ⟨fun ht => ht.respell h, fun ht => ht.respell (h.flip.imp fun _ _ => Respelt.symm)⟩
  | respellItems h =>
    exact ⟨fun ht => ht.respellItems h, fun ht =>
      ht.respellItems (h.flip.imp fun _ _ => Alike.symm)⟩

/-! ## Fields at fault -/

/-- The names of the fields that may not be left out. -/
def requiredNames : List String := ["key", "sender", "action"]

/-- A field holds a value in some place. -/
inductive Occurs : Tree → String → Tree → Prop
  | member {ms : List (Bytes × Tree)} {raw : Bytes} {name : String} {t : Tree}
      (hm : (raw, t) ∈ ms) (hn : Denotes raw name.toList) : Occurs (.object ms) name t
  | item {ts : List Tree} {name : String} {t : Tree} (h : (name, t) ∈ fieldNames.zip ts) :
      Occurs (.array ts) name t

/-- What may be wrong with the fields of a value. -/
inductive Faulty : Tree → Prop
  /-- Also when the value is no container. -/
  | missing {t : Tree} {name : String} (hname : name ∈ requiredNames)
      (h : ∀ u, ¬ Occurs t name u) : Faulty t
  | repeated {raw raw' : Bytes} {t u : Tree} {name : String} (hname : name ∈ fieldNames)
      (hn : Denotes raw name.toList) (hn' : Denotes raw' name.toList)
      (front between back : List (Bytes × Tree)) :
      Faulty (.object (front ++ (raw, t) :: (between ++ (raw', u) :: back)))
  /-- The name of a member stands for no text. -/
  | unnamed {ms : List (Bytes × Tree)} (h : ¬ Texts ms) : Faulty (.object ms)
  | tooLong {ts : List Tree} (h : fieldNames.length < ts.length) : Faulty (.array ts)
  /-- No string, or one that stands for no text. -/
  | notText {t u : Tree} {name : String} (hname : name ∈ requiredNames) (h : Occurs t name u)
      (hu : ∀ s, ¬ u.Says s) : Faulty t
  /-- Neither null nor a text, or no base 64. -/
  | badValue {t u : Tree} (h : Occurs t "value" u)
      (hu : ∀ s value, Told (some u) s → ¬ Value s value) : Faulty t

theorem occurs_object_iff {u : Tree} : Occurs (.object ms) name u ↔ u ∈ held ms name := by
  rw [Tree.mem_held_iff]
  constructor
  · rintro ⟨hm, hn⟩
    exact ⟨_, hm, hn⟩
  · rintro ⟨raw, hm, hn⟩
    exact .member hm hn

theorem Members.required (h : Members ms c) (hname : name ∈ requiredNames) :
    ∃ t s, Field ms name (some t) ∧ t.Says s := by
  simp only [requiredNames, List.mem_cons, List.not_mem_nil, or_false] at hname
  rcases hname with rfl | rfl | rfl
  · obtain ⟨t, hf, hs⟩ := h.key
    exact ⟨t, _, hf, hs⟩
  · obtain ⟨t, hf, hs⟩ := h.sender
    exact ⟨t, _, hf, hs⟩
  · obtain ⟨t, hf, hs⟩ := h.action
    exact ⟨t, _, hf, hs⟩

theorem occurs_array_iff {ts : List Tree} {u : Tree} :
    Occurs (.array ts) name u ↔ (name, u) ∈ fieldNames.zip ts := by
  constructor
  · rintro ⟨⟩
    assumption
  · exact .item

/-- A field that may not be left out is there once and is a text. -/
theorem Tells.required (h : Tells t c) (hname : name ∈ requiredNames) :
    ∃ u s, u.Says s ∧ ∀ v, Occurs t name v ↔ v = u := by
  cases h with
  | object _ hm =>
    obtain ⟨u, s, hf, hs⟩ := hm.required hname
    refine ⟨u, s, hs, fun v => ?_⟩
    rw [occurs_object_iff, Tree.field_iff.1 hf, Option.toList_some, List.mem_singleton]
  | three hk hs ha _ =>
    simp only [requiredNames, List.mem_cons, List.not_mem_nil, or_false] at hname
    rcases hname with rfl | rfl | rfl
    · exact ⟨_, _, hk, by simp [occurs_array_iff, fieldNames]⟩
    · exact ⟨_, _, hs, by simp [occurs_array_iff, fieldNames]⟩
    · exact ⟨_, _, ha, by simp [occurs_array_iff, fieldNames]⟩
  | four hk hs ha _ =>
    simp only [requiredNames, List.mem_cons, List.not_mem_nil, or_false] at hname
    rcases hname with rfl | rfl | rfl
    · exact ⟨_, _, hk, by simp [occurs_array_iff, fieldNames]⟩
    · exact ⟨_, _, hs, by simp [occurs_array_iff, fieldNames]⟩
    · exact ⟨_, _, ha, by simp [occurs_array_iff, fieldNames]⟩

theorem Tells.told (h : Tells t c) {u : Tree} (hu : Occurs t "value" u) :
    Told (some u) c.value := by
  cases h with
  | object _ hm =>
    obtain ⟨field, hf, hv⟩ := hm.value
    rw [occurs_object_iff, Tree.field_iff.1 hf, Option.mem_toList] at hu
    exact hu ▸ hv
  | three => simp [occurs_array_iff, fieldNames] at hu
  | four _ _ _ hv =>
    obtain rfl : u = _ := by simpa [occurs_array_iff, fieldNames] using hu
    exact hv

theorem Members.field (h : Members ms c) (hname : name ∈ fieldNames) :
    ∃ field, Field ms name field := by
  simp only [fieldNames, List.mem_cons, List.not_mem_nil, or_false] at hname
  rcases hname with rfl | rfl | rfl | rfl
  · exact h.key.elim fun t ht => ⟨some t, ht.1⟩
  · exact h.sender.elim fun t ht => ⟨some t, ht.1⟩
  · exact h.action.elim fun t ht => ⟨some t, ht.1⟩
  · exact h.value.elim fun field hf => ⟨field, hf.1⟩

theorem not_means_of_faulty (h : Faulty t) (ht : Tells t c) (e : Event) : ¬ Means c e := by
  intro hm
  cases h with
  | missing hname h =>
    obtain ⟨u, -, -, hu⟩ := ht.required hname
    exact h u ((hu u).2 rfl)
  | @repeated raw raw' u v name hname hn hn' front between back =>
    rcases ht with ⟨-, hms⟩ | _ | _
    obtain ⟨field, hf⟩ := hms.field hname
    -- A field is held once at most, but here are two of its members.
    have htwo := congrArg List.length (Tree.field_iff.1 hf)
    rw [Tree.held_append, Tree.held_cons hn, Tree.held_append, Tree.held_cons hn'] at htwo
    cases field <;> simp at htwo
    omega
  | unnamed h =>
    rcases ht with ⟨hn, -⟩ | _ | _
    exact h hn
  | tooLong h =>
    cases ht <;> simp [fieldNames] at h
  | notText hname h hu =>
    obtain ⟨v, s, hs, hv⟩ := ht.required hname
    obtain rfl := (hv _).1 h
    exact hu s hs
  | badValue h hu => exact hu _ _ (ht.told h) hm.value

/-! ## Decoding -/

theorem decode_of_relaid {raw raw' : Bytes} (hraw : t.Spelled raw) (hraw' : u.Spelled raw')
    (h : Relaid t u) {e : Event} (he : decode raw = .ok e) : decode raw' = .ok e := by
  obtain ⟨t', c, ht, htells, hm⟩ := decode_eq_ok_iff.1 he
  obtain rfl := spelled_unique hraw ht
  exact decode_eq_ok_iff.2 ⟨u, c, hraw', h.tells_iff.1 htells, hm⟩

theorem decode_append_ne_ok {raw extra : Bytes} {e : Event} (he : decode raw = .ok e)
    (hextra : ¬ Blank extra) (e' : Event) : decode (raw ++ extra) ≠ .ok e' := by
  intro he'
  obtain ⟨t, c, ht, htells, -⟩ := decode_eq_ok_iff.1 he
  obtain ⟨u, -, hu, -⟩ := decode_eq_ok_iff.1 he'
  have hnumber : ∀ n, t ≠ .number n := by
    rintro n rfl
    cases htells
  exact hextra (blank_of_read?_append ht hnumber (read?_eq_some_iff.2 hu))

/-- Decoding depends on the known fields and not on their layout.  A text decodes to an event
exactly when it spells, with white space around, a value that tells contents which mean the event;
any other text is a decoding failure.  So texts that tell the same contents, and texts that lay the
same fields out otherwise, decode to the same events, while a text is refused if it spells no value
or one with faulty fields, or if anything but white space follows the text of an event. -/
theorem decode_by_fields :
    (∀ raw e, decode raw = .ok e ↔ ∃ t c, t.Spelled raw ∧ Tells t c ∧ Means c e) ∧
    (∀ raw, (∀ e, decode raw ≠ .ok e) → ∃ d, decode raw = .error (.deserialization d)) ∧
    (∀ raw raw' t u c, t.Spelled raw → u.Spelled raw' → Tells t c → Tells u c →
      ∀ e, decode raw = .ok e ↔ decode raw' = .ok e) ∧
    (∀ raw raw' t u, t.Spelled raw → u.Spelled raw' → Relaid t u →
      ∀ e, decode raw = .ok e ↔ decode raw' = .ok e) ∧
    (∀ raw, (∀ t : Tree, t.Spelled raw → Faulty t) →
      ∃ d, decode raw = .error (.deserialization d)) ∧
    ∀ raw extra e, decode raw = .ok e → ¬ Blank extra →
      ∃ d, decode (raw ++ extra) = .error (.deserialization d) := by
  refine ⟨fun _ _ => decode_eq_ok_iff, fun _ h => ⟨_, decode_eq_error h⟩, ?_, ?_, ?_, ?_⟩
  · intro raw raw' t u c hraw hraw' ht hu e
    rw [decode_of_tells hraw ht, decode_of_tells hraw' hu]
  · intro raw raw' t u hraw hraw' h e
    exact ⟨decode_of_relaid hraw hraw' h, decode_of_relaid hraw' hraw h.symm⟩
  · intro raw h
    refine ⟨_, decode_eq_error fun e he => ?_⟩
    obtain ⟨t, c, ht, htells, hm⟩ := decode_eq_ok_iff.1 he
    exact not_means_of_faulty (h t ht) htells e hm
  · exact fun raw extra e he hextra => ⟨_, decode_eq_error (decode_append_ne_ok he hextra)⟩

/-- The members of an event in the reverse order, beside one of another name, with white space and
other escapes. -/
def relaidForm : Bytes :=
  Bytes.ofText ("\n\x7b \"v\\u0061lue\" : \"\\u0041A==\", \"x\": [\x7b\"y\": [1.5e3, null]\x7d]," ++
    " \"action\":\"set\", \"sender\":\"b\", \"key\":\"k\"\x7d ")

/-- The member of another name in `relaidForm`. -/
def otherMember : Bytes × Tree :=
  (Bytes.ofText "x", .array [.object [(Bytes.ofText "y",
    .array [.number ⟨false, [1], [5], some (false, [3])⟩, .null])]])

/-- The members of `relaidForm`. -/
def relaidMembers : List (Bytes × Tree) :=
  [(Bytes.ofText "v\\u0061lue", .string (Bytes.ofText "\\u0041A==")), otherMember,
    (spelling "action", .string (spelling "set")), (spelling "sender", .string (spelling "b")),
    (spelling "key", .string (spelling "k"))]

theorem spelled_relaidForm : (Tree.object relaidMembers).Spelled relaidForm := by
  have hscan : Token.scan relaidForm = some
      [.openObject, .string (Bytes.ofText "v\\u0061lue"), .colon,
        .string (Bytes.ofText "\\u0041A=="), .comma, .string (Bytes.ofText "x"), .colon,
        .openArray, .openObject, .string (Bytes.ofText "y"), .colon, .openArray,
        .number ⟨false, [1], [5], some (false, [3])⟩, .comma, .null, .closeArray, .closeObject,
        .closeArray, .comma, .string (spelling "action"), .colon, .string (spelling "set"),
        .comma, .string (spelling "sender"), .colon, .string (spelling "b"), .comma,
        .string (spelling "key"), .colon, .string (spelling "k"), .closeObject] := by
    decide +kernel
  rw [← read?_eq_some_iff, Tree.read?, hscan]
  rfl

theorem relaid_relaidMembers :
    Relaid (.object (members (set "k" "b" [0]))) (.object relaidMembers) := by
  have respelt : ∀ {raw raw' : Bytes} {t u : Tree} (name : String), unquote? raw = some name →
      unquote? raw' = some name → Alike t u → Respelt (raw, t) (raw', u) :=
    fun name h h' ha =>
      ⟨⟨name, unquote?_eq_some_iff.1 h, unquote?_eq_some_iff.1 h'⟩, ha⟩
  have hvalue : Alike (.string (spelling "AA==")) (.string (Bytes.ofText "\\u0041A==")) :=
    .text ⟨_, rfl, unquote?_eq_some_iff.1 (unquote?_spelling "AA==")⟩
      ⟨_, rfl, unquote?_eq_some_iff.1 (by decide +kernel)⟩
  refine .trans (.reorder (List.reverse_perm _).symm) (.trans (.insert
    (unquote?_eq_some_iff.1 (by decide +kernel : unquote? otherMember.1 = some "x")) (by decide)
    [(spelling "value", .string (spelling "AA=="))] [(spelling "action", .string (spelling "set")),
      (spelling "sender", .string (spelling "b")), (spelling "key", .string (spelling "k"))]
    otherMember.2) (.respell ?_))
  exact .cons (respelt "value" (unquote?_spelling _) (by decide +kernel) hvalue)
    (.cons (respelt "x" (by decide +kernel) (by decide +kernel) (.refl _))
      (.cons (respelt "action" (unquote?_spelling _) (unquote?_spelling _) (.refl _))
        (.cons (respelt "sender" (unquote?_spelling _) (unquote?_spelling _) (.refl _))
          (.cons (respelt "key" (unquote?_spelling _) (unquote?_spelling _) (.refl _)) .nil))))

theorem decode_by_fields_of_relaid_form :
    decode (set "k" "b" [0]).encode = .ok (set "k" "b" [0]) ∧
    decode relaidForm = .ok (set "k" "b" [0]) ∧
    ∃ d, decode (relaidForm ++ [Ascii.comma]) = .error (.deserialization d) := by
  have hplain : decode (set "k" "b" [0]).encode = .ok (set "k" "b" [0]) := decode_encode _
  have hrelaid : decode relaidForm = .ok (set "k" "b" [0]) :=
    (decode_by_fields.2.2.2.1 _ _ _ _ (read?_eq_some_iff.1 (read?_encode _)) spelled_relaidForm
      relaid_relaidMembers _).1 hplain
  have hcomma : ¬ Blank [Ascii.comma] := fun h => absurd (h _ List.mem_cons_self) (by decide)
  exact ⟨hplain, hrelaid, decode_by_fields.2.2.2.2.2 _ _ _ hrelaid hcomma⟩

/-- The text of an event beside a member whose name is a lone surrogate. -/
def unnamedForm : Bytes :=
  Bytes.ofText "\x7b\"key\":\"k\",\"sender\":\"s\",\"action\":\"set\",\"\\ud800\":1\x7d"

/-- The known fields are as they should be, and still the text is refused: the names of other
members have to stand for texts, too. -/
theorem decode_unnamed_form :
    (∃ ms, (Tree.object ms).Spelled unnamedForm ∧ Members ms ⟨"k", "s", "set", none⟩) ∧
    Means ⟨"k", "s", "set", none⟩ ⟨"k", "s", .set, none⟩ ∧
    decode unnamedForm = .error (.deserialization "not an invalidation event") := by
  have hscan : Token.scan unnamedForm = some
      [.openObject, .string (spelling "key"), .colon, .string (spelling "k"), .comma,
        .string (spelling "sender"), .colon, .string (spelling "s"), .comma,
        .string (spelling "action"), .colon, .string (spelling "set"), .comma,
        .string (Bytes.ofText "\\ud800"), .colon, .number ⟨false, [1], [], none⟩,
        .closeObject] := by
    decide +kernel
  have hspelled : (Tree.object (members ⟨"k", "s", .set, none⟩ ++
      [(Bytes.ofText "\\ud800", .number ⟨false, [1], [], none⟩)])).Spelled unnamedForm := by
    rw [← read?_eq_some_iff, Tree.read?, hscan]
    rfl
  have hunnamed : ∀ name : String, ¬ Denotes (Bytes.ofText "\\ud800") name.toList := by
    intro name h
    have hnone : unquote? (Bytes.ofText "\\ud800") = none := by decide +kernel
    rw [unquote?_eq_some_iff.2 h] at hnone
    cases hnone
  rcases tells_members ⟨"k", "s", .set, none⟩ with ⟨-, hm⟩ | _ | _
  exact ⟨⟨_, hspelled, hm.append_unnamed hunnamed _⟩, ⟨rfl, rfl, rfl, .none⟩, by decide +kernel⟩

end PodCache.Event
