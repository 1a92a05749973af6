import PodCache.Base64
import PodCache.Error
import PodCache.Event.Basic
import PodCache.Json.Fields

/-!
# Events on the wire

An event travels as a JSON object of its fields, in a fixed order; the value is base 64 and is left
out when there is none.  `Event.decode` reads events of any writer: the fields may come in any order
among others, or as an array.  An empty value decodes to no value.
-/

namespace PodCache.Event

open Ascii

/-- The names of the fields in their order. -/
def fieldNames : List String := ["key", "sender", "action", "value"]

/-- A member of the object. -/
def member (name value : String) : Bytes := Json.quote name ++ colon :: Json.quote value

/-- The member of the value, if there is one. -/
def valueMember : Option Bytes → Bytes
  | none => []
  | some bytes => comma :: member "value" (Base64.encode bytes)

/-- The wire form of an event. -/
def encode (e : Event) : Bytes :=
  openBrace :: member "key" e.key ++ comma :: member "sender" e.sender ++
    comma :: member "action" e.action.text ++ valueMember e.value ++ [closeBrace]

/-- The value of an event as it is spelled: base 64, where an empty text, like `null`, stands for no
value. -/
def value? (t : Json.Tree) : Option (Option Bytes) := do
  match ← t.optional? Json.Tree.string? with
  | none => return none
  | some text => if text = "" then return none else (Base64.decode? text).map some

/-- The event that a syntax tree spells. -/
def ofTree? (t : Json.Tree) : Option Event :=
  match t.fields? fieldNames with
  | some [key, sender, action, value] => do
    let key ← Json.Tree.required? Json.Tree.string? key
    let sender ← Json.Tree.required? Json.Tree.string? sender
    let action ← Json.Tree.required? Json.Tree.string? action
    let value ← Json.Tree.orDefault? none value? value
    return ⟨key, sender, .ofText action, value⟩
  | _ => none

/-- The event of a wire form. -/
def decode? (raw : Bytes) : Option Event := (Json.Tree.read? raw).bind ofTree?

/-- The event of a wire form; any other octets are a decoding failure. -/
def decode (raw : Bytes) : Except Error Event :=
  match decode? raw with
  | some e => .ok e
  | none => .error (.deserialization "not an invalidation event")

end PodCache.Event
