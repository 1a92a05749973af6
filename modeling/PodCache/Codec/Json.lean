import PodCache.Codec.Basic
import PodCache.Json.Fields

/-!
# Values as JSON

A value is stored as compact JSON text.  A `Json.Shape` says which JSON value a value is and which
syntax trees are read as one.
-/

namespace PodCache

namespace Json

/-- How values of type `V` are spelled in JSON. -/
structure Shape (V : Type) where
  toValue : V → Value
  ofTree? : Tree → Option V

namespace Shape

/-- Texts. -/
def string : Shape String := ⟨.string, Tree.string?⟩

/-- Unsigned 64-bit numbers. -/
def word : Shape UInt64 := ⟨fun n => .number (.int n.toNat), Tree.word?⟩

/-- Signed 64-bit numbers. -/
def long : Shape Int64 := ⟨fun n => .number (.int n.toInt), Tree.long?⟩

/-- Signed 32-bit numbers. -/
def short : Shape Int32 := ⟨fun n => .number (.int n.toInt), Tree.short?⟩

/-- Truth values. -/
def bool : Shape Bool := ⟨.bool, Tree.bool?⟩

/-- Texts that may be absent. -/
def optionalString : Shape (Option String) where
  toValue
    | none => .null
    | some s => .string s
  ofTree? := Tree.optional? Tree.string?

/-- Lists of values of one shape. -/
def list {V : Type} (shape : Shape V) : Shape (List V) where
  toValue vs := .array (vs.map shape.toValue)
  ofTree?
    | .array items => items.mapM shape.ofTree?
    | _ => none

/-- Users, as records of their two fields. -/
def user : Shape User where
  toValue u := .object [("id", word.toValue u.id), ("name", .string u.name)]
  ofTree? t :=
    match t.fields? ["id", "name"] with
    | some [id, name] => do
      let id ← Tree.required? Tree.word? id
      let name ← Tree.required? Tree.string? name
      return ⟨id, name⟩
    | _ => none

/-- Arbitrary JSON values. -/
def value : Shape Value := ⟨id, Value.ofTree? Value.maxDepth⟩

end Shape

end Json

namespace Codec

/-- Stores values as compact JSON. -/
def json {V : Type} (shape : Json.Shape V) : Codec V :=
  ofReader (fun v => (shape.toValue v).render) fun bytes =>
    (Json.Tree.read? bytes).bind shape.ofTree?

/-- The name under which the codec of JSON is described. -/
def jsonName : String := "JsonSerializer"

end Codec

end PodCache
