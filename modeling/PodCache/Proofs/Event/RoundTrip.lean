import PodCache.Event.Wire
import PodCache.Proofs.Base64
import PodCache.Proofs.Json.Literal

/-!
# Reading back events

Decoding the wire form of an event gives its normal form (`decode_encode`): an empty value counts as
none, and an action is the known one of its text if there is one.  The events that the library
itself builds are in normal form unless they carry an empty value, and so is every event that is
read, whoever wrote it (`round_trip`).
-/

namespace PodCache

/-! ## Actions and their names -/

namespace Action

theorem text_ofText (s : String) : (ofText s).text = s := by
  unfold ofText
  split_ifs with h₁ h₂ h₃ h₄
  · exact h₁.symm
  · exact h₂.symm
  · exact h₃.symm
  · exact h₄.symm
  · rfl

theorem ofText_text (a : Action) :
    ofText a.text =
      match a with
      | .unknown "set" => .set
      | .unknown "invalidate" => .invalidate
      | .unknown "delete" => .delete
      | .unknown "clear" => .clear
      | a => a := by
  cases a with
  | unknown text =>
    rw [Action.text, ofText]
    split_ifs with h₁ h₂ h₃ h₄
    · rw [h₁]
      rfl
    · rw [h₂]
      rfl
    · rw [h₃]
      rfl
    · rw [h₄]
      rfl
    · split <;> simp_all
  | _ => rfl

end Action

namespace Event

open Ascii Json

/-! ## Normal forms -/

/-- What a receiver makes of an event. -/
def normal (e : Event) : Event :=
  { e with action := .ofText e.action.text, value := e.value.filter fun bytes => !bytes.isEmpty }

theorem normal_invalidate (key sender : String) :
    (invalidate key sender).normal = invalidate key sender := rfl

theorem normal_delete (key sender : String) :
    (delete key sender).normal = delete key sender := rfl

theorem normal_clear (sender : String) : (clear sender).normal = clear sender := rfl

theorem normal_set (key sender : String) {bytes : Bytes} (h : bytes ≠ []) :
    (set key sender bytes).normal = set key sender bytes := by
  simp [normal, set, Action.text, Action.ofText, Option.filter, h]

/-! ## Tokens -/

/-- The octets between the quotes of a quoted text. -/
def spelling (s : String) : Bytes := s.toList.flatMap escapeChar

theorem unquote?_spelling (s : String) : unquote? (spelling s) = some s :=
  unquote?_flatMap_escapeChar s

/-- The tokens of a member. -/
def memberTokens (name value : String) : List Token :=
  [.string (spelling name), .colon, .string (spelling value)]

theorem scan_member (name value : String) (t : Bytes) :
    Token.scan (member name value ++ t) = (Token.scan t).map (memberTokens name value ++ ·) := by
  rw [member, List.append_assoc, scan_quote, List.cons_append,
    scan_of_next? (by decide) rfl, scan_quote, Option.map_map, Option.map_map]
  rfl

/-- The tokens of the member of the value, if there is one. -/
def valueTokens : Option Bytes → List Token
  | none => []
  | some bytes => .comma :: memberTokens "value" (Base64.encode bytes)

theorem scan_valueMember (value : Option Bytes) (t : Bytes) :
    Token.scan (valueMember value ++ t) = (Token.scan t).map (valueTokens value ++ ·) := by
  cases value with
  | none => simp [valueMember, valueTokens]
  | some bytes =>
    rw [valueMember, List.cons_append, scan_of_next? (by decide) rfl, scan_member, Option.map_map]
    rfl

theorem scan_encode (e : Event) :
    Token.scan e.encode =
      some (.openObject :: memberTokens "key" e.key ++ .comma :: memberTokens "sender" e.sender ++
        .comma :: memberTokens "action" e.action.text ++ valueTokens e.value ++
        [.closeObject]) := by
  have hend : Token.scan [closeBrace] = some [.closeObject] := by
    rw [scan_of_next? (by decide) rfl, Token.scan]
    rfl
  simp only [encode, List.cons_append, List.append_assoc]
  rw [scan_of_next? (by decide) rfl, scan_member, scan_of_next? (by decide) rfl, scan_member,
    scan_of_next? (by decide) rfl, scan_member, scan_valueMember, hend]
  rfl

/-! ## Trees -/

/-- The members of the object, with the spellings of their names. -/
def members (e : Event) : List (Bytes × Tree) :=
  [(spelling "key", .string (spelling e.key)), (spelling "sender", .string (spelling e.sender)),
    (spelling "action", .string (spelling e.action.text))] ++
  (e.value.map fun bytes => (spelling "value", Tree.string (spelling (Base64.encode bytes)))).toList

theorem read?_encode (e : Event) : Tree.read? e.encode = some (.object e.members) := by
  rw [Tree.read?, scan_encode, Option.bind_some]
  rcases e with ⟨key, sender, action, _ | bytes⟩ <;> rfl

theorem namedMembers?_members (e : Event) :
    Tree.namedMembers? e.members =
      some ([("key", .string (spelling e.key)), ("sender", .string (spelling e.sender)),
          ("action", .string (spelling e.action.text))] ++
        (e.value.map fun bytes =>
          ("value", Tree.string (spelling (Base64.encode bytes)))).toList) := by
  rcases e with ⟨key, sender, action, _ | bytes⟩ <;>
    simp [Tree.namedMembers?, members, unquote?_spelling]

theorem fields?_members (e : Event) :
    Tree.fields? fieldNames (.object e.members) =
      some [some (.string (spelling e.key)), some (.string (spelling e.sender)),
        some (.string (spelling e.action.text)),
        e.value.map fun bytes => .string (spelling (Base64.encode bytes))] := by
  rw [Tree.fields?, namedMembers?_members]
  rcases e with ⟨key, sender, action, _ | bytes⟩ <;> rfl

theorem value?_string (bytes : Bytes) :
    value? (.string (spelling (Base64.encode bytes))) =
      some ((some bytes).filter fun bytes => !bytes.isEmpty) := by
  have ho : Tree.optional? Tree.string? (.string (spelling (Base64.encode bytes))) =
      some (some (Base64.encode bytes)) := by
    rw [Tree.optional?, Tree.string?, unquote?_spelling]
    · rfl
    · simp
  simp only [value?, ho, Option.bind_eq_bind, Option.bind_some, Base64.encode_eq_empty_iff]
  split_ifs with h
  · subst h
    rfl
  · rw [Base64.decode?_encode, Option.filter, if_pos (by simp [h])]
    rfl

theorem ofTree?_members (e : Event) : ofTree? (.object e.members) = some e.normal := by
  rw [ofTree?, fields?_members]
  simp only [Tree.required?, Tree.string?, Option.bind_some, unquote?_spelling,
    Option.bind_eq_bind]
  rcases e with ⟨key, sender, action, _ | bytes⟩
  · rfl
  · rw [Option.map_some, Tree.orDefault?, value?_string]
    rfl

theorem decode_encode (e : Event) : decode e.encode = .ok e.normal := by
  rw [decode, decode?, read?_encode, Option.bind_some, ofTree?_members]

/-! ## Normal forms are what is read -/

theorem value?_ne_empty {t : Tree} : value? t ≠ some (some []) := by
  unfold value?
  intro h
  obtain ⟨text, -, h⟩ := Option.bind_eq_some_iff.1 h
  cases text with
  | none => cases h
  | some text =>
    dsimp only at h
    split_ifs at h with hempty
    · cases h
    · obtain ⟨bytes, hd, hb⟩ := Option.map_eq_some_iff.1 h
      obtain rfl := Option.some.inj hb
      exact Base64.decode?_ne_nil hempty hd

theorem normal_of_ofTree? {t : Tree} {e : Event} (h : ofTree? t = some e) : e.normal = e := by
  unfold ofTree? at h
  split at h
  · obtain ⟨key, -, h⟩ := Option.bind_eq_some_iff.1 h
    obtain ⟨sender, -, h⟩ := Option.bind_eq_some_iff.1 h
    obtain ⟨action, -, h⟩ := Option.bind_eq_some_iff.1 h
    obtain ⟨value, hv, h⟩ := Option.bind_eq_some_iff.1 h
    obtain rfl := Option.some.inj h
    have hne : value ≠ some [] := by
      rintro rfl
      unfold Tree.orDefault? at hv
      split at hv
      · cases hv
      · exact value?_ne_empty hv
    have hvalue : value.filter (fun bytes => !bytes.isEmpty) = value := by
      cases value with
      | none => rfl
      | some bytes => simpa [Option.filter] using hne
    rw [normal, Action.text_ofText, hvalue]
  · cases h

theorem normal_of_decode {raw : Bytes} {e : Event} (h : decode raw = .ok e) : e.normal = e := by
  unfold decode at h
  split at h
  · obtain rfl := Except.ok.inj h
    obtain ⟨t, -, ht⟩ := Option.bind_eq_some_iff.1 ‹_›
    exact normal_of_ofTree? ht
  · cases h

/-- Decoding the wire form of an event gives its normal form, in which an empty value is none and an
unknown action with the name of a known one is that one, and which has the same key, sender, text of
the action and payload.  Every event that is read is in normal form, so that it is read again as
itself. -/
theorem round_trip (e : Event) :
    decode e.encode = .ok e.normal ∧
    e.normal =
      { e with
        action :=
          match e.action with
          | .unknown "set" => .set
          | .unknown "invalidate" => .invalidate
          | .unknown "delete" => .delete
          | .unknown "clear" => .clear
          | action => action
        value :=
          match e.value with
          | some [] => none
          | value => value } ∧
    e.normal.key = e.key ∧ e.normal.sender = e.sender ∧
    e.normal.action.text = e.action.text ∧ e.normal.payload = e.payload ∧
    ∀ raw d, decode raw = .ok d → d.normal = d ∧ decode d.encode = .ok d := by
  have hvalue : e.value.filter (fun bytes => !bytes.isEmpty) =
      match e.value with
      | some [] => none
      | value => value := by
    rcases e.value with _ | _ | ⟨b, bytes⟩ <;> rfl
  refine ⟨decode_encode e, ?_, rfl, rfl, Action.text_ofText _, ?_, fun raw d h => ?_⟩
  · rw [normal, Action.ofText_text, hvalue]
  · rw [payload, payload, normal, hvalue]
    rcases e.value with _ | _ | ⟨b, bytes⟩ <;> rfl
  · have hd : d.normal = d := normal_of_decode h
    exact ⟨hd, by rw [decode_encode, hd]⟩

/-- The wire form of an event of another writer, with an empty value and members of its own. -/
def foreignForm : Bytes :=
  Bytes.ofText "\x7b\"value\":\"\",\"v\":2,\"action\":\"clear\",\"sender\":\"b\",\"key\":\"*\"\x7d"

theorem round_trip_of_foreign_form :
    decode foreignForm = .ok (clear "b") ∧ (clear "b").normal = clear "b" ∧
      decode (clear "b").encode = .ok (clear "b") :=
  ⟨by decide +kernel,
    (round_trip (clear "b")).2.2.2.2.2.2 foreignForm (clear "b") (by decide +kernel)⟩

end Event

end PodCache
