import PodCache.Json.Fields
import PodCache.Text.Record

/-!
# Where the store is

The settings that a networked store is reached by.  They are read from JSON, where each may be left
out.
-/

namespace PodCache

/-- The settings of a networked store. -/
structure StoreConfig where
  /-- The URL of the store. -/
  address : String := "redis://127.0.0.1:6379"
  password : Option String := none
  /-- The number of the database within the store. -/
  database : Int64 := 0
  deriving DecidableEq, Repr

namespace StoreConfig

/-- The names of the fields in their order. -/
def fieldNames : List String := ["address", "password", "database"]

/-- The settings that a syntax tree spells; missing fields have their defaults. -/
def ofTree? (t : Json.Tree) : Option StoreConfig :=
  let default : StoreConfig := {}
  match t.fields? fieldNames with
  | some [address, password, database] => do
    let address ← Json.Tree.orDefault? default.address Json.Tree.string? address
    let password ←
      Json.Tree.orDefault? default.password (Json.Tree.optional? Json.Tree.string?) password
    let database ← Json.Tree.orDefault? default.database Json.Tree.long? database
    return { address, password, database }
  | _ => none

/-- The settings that a text spells. -/
def read? (bytes : Bytes) : Option StoreConfig := (Json.Tree.read? bytes).bind ofTree?

/-- The JSON texts of the fields in their order. -/
def contents (c : StoreConfig) : List Bytes :=
  [Json.quote c.address, (c.password.map Json.quote).getD (Bytes.ofText "null"),
    Bytes.ofText (toString c.database.toInt)]

/-- A member of the JSON text. -/
def member (name : String) (content : Bytes) : Bytes := Json.quote name ++ Ascii.colon :: content

/-- The compact JSON text, with every field. -/
def render (c : StoreConfig) : Bytes :=
  Ascii.openBrace ::
    [Ascii.comma].intercalate (List.zipWith member fieldNames c.contents) ++ [Ascii.closeBrace]

/-- The description of the settings. -/
def describe (c : StoreConfig) : String :=
  Text.record "StoreConfig"
    (fieldNames.zip
      [Text.quoted c.address, Text.optionalQuoted c.password, toString c.database.toInt])

end StoreConfig

end PodCache
