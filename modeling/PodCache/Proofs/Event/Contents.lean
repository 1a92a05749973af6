import PodCache.Proofs.Event.RoundTrip
import PodCache.Proofs.Json.Fields
import PodCache.Proofs.Json.Grammar

/-!
# The contents of events

Which texts are events, whoever wrote them.  A text tells the contents of the known fields
(`Tells`), and the contents mean an event (`Means`).  Decoding finds exactly these
(`decode_eq_ok_iff`), and what a text tells is all that decides on its event (`decode_of_tells`).
-/

namespace PodCache.Event

open Json
open PodCache.Json.Tree (Texts Field)

/-! ## What a text tells -/

/-- The known fields as texts. -/
structure Contents where
  key : String
  sender : String
  action : String
  value : Option String

/-- The text of a field that may be left out or be null. -/
inductive Told : Option Tree → Option String → Prop
  | missing : Told none none
  | null : Told (some .null) none
  | text {t : Tree} {s : String} (h : t.Says s) : Told (some t) (some s)

/-- The members of an object tell the contents, beside members of other names. -/
structure Members (ms : List (Bytes × Tree)) (c : Contents) : Prop where
  key : ∃ t, Field ms "key" (some t) ∧ t.Says c.key
  sender : ∃ t, Field ms "sender" (some t) ∧ t.Says c.sender
  action : ∃ t, Field ms "action" (some t) ∧ t.Says c.action
  value : ∃ field, Field ms "value" field ∧ Told field c.value

/-- A value tells the contents: an object whose names are texts, or an array of the fields in their
order. -/
inductive Tells : Tree → Contents → Prop
  | object {ms : List (Bytes × Tree)} {c : Contents} (hn : Texts ms) (h : Members ms c) :
      Tells (.object ms) c
  | three {key sender action : Tree} {c : Contents} (hk : key.Says c.key)
      (hs : sender.Says c.sender) (ha : action.Says c.action) (hv : c.value = none) :
      Tells (.array [key, sender, action]) c
  | four {key sender action value : Tree} {c : Contents} (hk : key.Says c.key)
      (hs : sender.Says c.sender) (ha : action.Says c.action) (hv : Told (some value) c.value) :
      Tells (.array [key, sender, action, value]) c

/-- The octets of a value: base 64, or none for the empty text. -/
inductive Value : Option String → Option Bytes → Prop
  | none : Value none none
  | empty : Value (some "") none
  | bytes {bytes : Bytes} (h : bytes ≠ []) : Value (some (Base64.encode bytes)) (some bytes)

/-- The event of the contents. -/
structure Means (c : Contents) (e : Event) : Prop where
  key : e.key = c.key
  sender : e.sender = c.sender
  action : e.action = .ofText c.action
  value : Value c.value e.value

/-! ## Reading the fields -/

theorem required?_eq_some_iff {field : Option Tree} {s : String} :
    Tree.required? Tree.string? field = some s ↔ ∃ t, field = some t ∧ t.Says s := by
  rw [Tree.required?, Option.bind_eq_some_iff]
  exact exists_congr fun t => and_congr_right fun _ => Tree.string?_eq_some_iff

theorem optional?_eq_some_iff {t : Tree} {s : Option String} :
    t.optional? Tree.string? = some s ↔ Told (some t) s := by
  cases t with
  | null =>
    constructor
    · intro h
      obtain rfl := Option.some.inj h
      exact .null
    · rintro (_ | _ | ⟨_, ⟨⟩, _⟩)
      rfl
  | _ =>
    rw [Tree.optional?, Option.map_eq_some_iff]
    · constructor
      · rintro ⟨s, hs, rfl⟩
        exact .text (Tree.string?_eq_some_iff.1 hs)
      · rintro (_ | _ | h)
        exact ⟨_, Tree.string?_eq_some_iff.2 h, rfl⟩
    · simp

theorem value?_eq_some_iff {t : Tree} {value : Option Bytes} :
    value? t = some value ↔ ∃ s, Told (some t) s ∧ Value s value := by
  rw [value?, Option.bind_eq_bind, Option.bind_eq_some_iff]
  refine exists_congr fun s => and_congr optional?_eq_some_iff ?_
  cases s with
  | none =>
    constructor
    · intro h
      obtain rfl := Option.some.inj h
      exact .none
    · rintro ⟨⟩
      rfl
  | some text =>
    dsimp only
    split_ifs with h
    · subst h
      constructor
      · intro h
        obtain rfl := Option.some.inj h
        exact .empty
      · intro h
        generalize hs : some "" = s at h
        cases h with
        | none => cases hs
        | empty => rfl
        | bytes hne => exact absurd ((Base64.encode_eq_empty_iff _).1 (Option.some.inj hs).symm) hne
    · rw [Option.map_eq_some_iff]
      constructor
      · rintro ⟨bytes, hd, rfl⟩
        obtain rfl := Base64.decode?_eq_some_iff.1 hd
        exact .bytes fun hne => h ((Base64.encode_eq_empty_iff _).2 hne)
      · rintro (_ | _ | hne)
        · exact absurd rfl h
        · exact ⟨_, Base64.decode?_encode _, rfl⟩

theorem orDefault?_eq_some_iff {field : Option Tree} {value : Option Bytes} :
    Tree.orDefault? none value? field = some value ↔ ∃ s, Told field s ∧ Value s value := by
  cases field with
  | none =>
    constructor
    · intro h
      obtain rfl := Option.some.inj h
      exact ⟨none, .missing, .none⟩
    · rintro ⟨s, ⟨⟩, ⟨⟩⟩
      rfl
  | some t => exact value?_eq_some_iff

/-- A value tells the contents that its fields hold. -/
theorem tells_iff {t : Tree} {c : Contents} :
    Tells t c ↔ ∃ key sender action value,
      t.fields? fieldNames = some [some key, some sender, some action, value] ∧
      key.Says c.key ∧ sender.Says c.sender ∧ action.Says c.action ∧ Told value c.value := by
  cases t with
  | object ms =>
    constructor
    · rintro ⟨hn, ⟨key, hkey, hk⟩, ⟨sender, hsender, hs⟩, ⟨action, haction, ha⟩, value, hvalue, hv⟩
      exact ⟨key, sender, action, value, Tree.fields?_object_iff.2
        ⟨hn, .cons hkey (.cons hsender (.cons haction (.cons hvalue .nil)))⟩, hk, hs, ha, hv⟩
    · rintro ⟨key, sender, action, value, h, hk, hs, ha, hv⟩
      obtain ⟨hn, hf⟩ := Tree.fields?_object_iff.1 h
      obtain _ | ⟨hkey, _ | ⟨hsender, _ | ⟨haction, _ | ⟨hvalue, -⟩⟩⟩⟩ := hf
      exact .object hn ⟨⟨key, hkey, hk⟩, ⟨sender, hsender, hs⟩, ⟨action, haction, ha⟩,
        value, hvalue, hv⟩
  | array items =>
    constructor
    · intro h
      cases h with
      | three hk hs ha hv => exact ⟨_, _, _, none, rfl, hk, hs, ha, hv ▸ .missing⟩
      | four hk hs ha hv => exact ⟨_, _, _, some _, rfl, hk, hs, ha, hv⟩
    · rintro ⟨key, sender, action, value, h, hk, hs, ha, hv⟩
      rcases items with _ | ⟨i, _ | ⟨j, _ | ⟨k, _ | ⟨l, _ | ⟨m, items⟩⟩⟩⟩⟩ <;>
        simp [Tree.fields?, fieldNames] at h
      · obtain ⟨rfl, rfl, rfl, rfl⟩ := h
        cases hc : c.value with
        | none => exact .three hk hs ha hc
        | some s => exact absurd hv (by rw [hc]; rintro ⟨⟩)
      · obtain ⟨rfl, rfl, rfl, rfl⟩ := h
        exact .four hk hs ha hv
  | _ =>
    constructor
    · rintro ⟨⟩
    · rintro ⟨_, _, _, _, ⟨⟩, _⟩

theorem ofTree?_eq_some_iff {t : Tree} {e : Event} :
    ofTree? t = some e ↔ ∃ c, Tells t c ∧ Means c e := by
  constructor
  · intro h
    unfold ofTree? at h
    split at h
    · rename_i hfields
      obtain ⟨k, hk, h⟩ := Option.bind_eq_some_iff.1 h
      obtain ⟨s, hs, h⟩ := Option.bind_eq_some_iff.1 h
      obtain ⟨a, ha, h⟩ := Option.bind_eq_some_iff.1 h
      obtain ⟨v, hv, h⟩ := Option.bind_eq_some_iff.1 h
      obtain rfl := Option.some.inj h
      obtain ⟨key, rfl, hkey⟩ := required?_eq_some_iff.1 hk
      obtain ⟨sender, rfl, hsender⟩ := required?_eq_some_iff.1 hs
      obtain ⟨action, rfl, haction⟩ := required?_eq_some_iff.1 ha
      obtain ⟨text, htext, hvalue⟩ := orDefault?_eq_some_iff.1 hv
      exact ⟨⟨k, s, a, text⟩,
        tells_iff.2 ⟨key, sender, action, _, hfields, hkey, hsender, haction, htext⟩,
        rfl, rfl, rfl, hvalue⟩
    · cases h
  · rintro ⟨c, ht, hm⟩
    obtain ⟨key, sender, action, value, hfields, hk, hs, ha, hv⟩ := tells_iff.1 ht
    rw [ofTree?, hfields]
    simp only [required?_eq_some_iff.2 ⟨key, rfl, hk⟩, required?_eq_some_iff.2 ⟨sender, rfl, hs⟩,
      required?_eq_some_iff.2 ⟨action, rfl, ha⟩, orDefault?_eq_some_iff.2 ⟨c.value, hv, hm.value⟩,
      Option.bind_eq_bind, Option.bind_some, Option.pure_def, ← hm.key, ← hm.sender, ← hm.action]

theorem decode_eq_ok_iff {raw : Bytes} {e : Event} :
    decode raw = .ok e ↔ ∃ t c, t.Spelled raw ∧ Tells t c ∧ Means c e := by
  have hdecode : decode raw = .ok e ↔ decode? raw = some e := by
    rw [decode]
    cases decode? raw <;> simp
  rw [hdecode, decode?, Option.bind_eq_some_iff]
  simp only [read?_eq_some_iff, ofTree?_eq_some_iff, exists_and_left]

theorem decode_eq_error {raw : Bytes} (h : ∀ e, decode raw ≠ .ok e) :
    decode raw = .error (.deserialization "not an invalidation event") := by
  rw [decode] at h ⊢
  cases hd : decode? raw with
  | none => rfl
  | some e => exact absurd (by rw [hd]) (h e)

theorem tells_members (e : Event) : Tells (.object e.members)
    ⟨e.key, e.sender, e.action.text, e.value.map Base64.encode⟩ := by
  have htexts : ∀ s, (Tree.string (spelling s)).Says s := fun s =>
    ⟨_, rfl, unquote?_eq_some_iff.1 (unquote?_spelling s)⟩
  refine tells_iff.2 ⟨_, _, _, _, fields?_members e, htexts _, htexts _, htexts _, ?_⟩
  cases e.value with
  | none => exact .missing
  | some bytes => exact .text (htexts _)

/-! ## The contents alone -/

theorem Told.unique {field : Option Tree} {s s' : Option String} (h : Told field s)
    (h' : Told field s') : s = s' := by
  cases h with
  | missing =>
    cases h'
    rfl
  | null =>
    rcases h' with _ | _ | ⟨_, ⟨⟩, _⟩
    rfl
  | text h =>
    rcases h' with _ | _ | h'
    · obtain ⟨_, ⟨⟩, _⟩ := h
    · exact congrArg some (Tree.says_unique h h')

theorem Tells.unique {t : Tree} {c c' : Contents} (h : Tells t c) (h' : Tells t c') : c = c' := by
  obtain ⟨key, sender, action, value, hf, hk, hs, ha, hv⟩ := tells_iff.1 h
  obtain ⟨key', sender', action', value', hf', hk', hs', ha', hv'⟩ := tells_iff.1 h'
  simp only [hf, Option.some.injEq, List.cons.injEq, and_true] at hf'
  obtain ⟨rfl, rfl, rfl, rfl⟩ := hf'
  cases c
  cases c'
  rw [Contents.mk.injEq]
  exact ⟨Tree.says_unique hk hk', Tree.says_unique hs hs', Tree.says_unique ha ha', hv.unique hv'⟩

/-- The event of a text is the one that its contents mean. -/
theorem decode_of_tells {raw : Bytes} {t : Tree} {c : Contents} (hraw : t.Spelled raw)
    (ht : Tells t c) {e : Event} : decode raw = .ok e ↔ Means c e := by
  rw [decode_eq_ok_iff]
  constructor
  · rintro ⟨u, d, hu, hd, hm⟩
    obtain rfl := spelled_unique hraw hu
    obtain rfl := ht.unique hd
    exact hm
  · exact fun hm => ⟨t, c, hraw, ht, hm⟩

end PodCache.Event
