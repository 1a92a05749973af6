import PodCache.Json.Literal
import PodCache.Json.Numeral
import PodCache.Json.Tree

/-!
# JSON values

A `Value` is what a JSON text means: strings are texts, numbers are numbers, and an object maps
names to values in ascending order of the names, the last of several members of one name counting.
`Value.ofTree?` gives the meaning of a syntax tree up to a depth of nesting, `Value.render` the
compact text of a value.
-/

namespace PodCache.Json

open Ascii

/-- A JSON value. -/
inductive Value where
  | null
  | bool (b : Bool)
  | number (n : Number)
  | string (s : String)
  | array (items : List Value)
  /-- An object, its members in ascending order of their names. -/
  | object (members : List (String × Value))

namespace Value

/-- Puts a member in its place, over an earlier one of the same name. -/
def insertMember (name : String) (v : Value) : List (String × Value) → List (String × Value)
  | [] => [(name, v)]
  | (name', v') :: rest =>
    if name = name' then (name, v) :: rest
    else if name < name' then (name, v) :: (name', v') :: rest
    else (name', v') :: insertMember name v rest

/-- The members in ascending order of their names, the last of each name. -/
def sortMembers (members : List (String × Value)) : List (String × Value) :=
  members.foldl (fun sorted m => insertMember m.1 m.2 sorted) []

/-- The deepest nesting of arrays and objects in a value that is read from a text. -/
def maxDepth : Nat := 127

/-- The meaning of a syntax tree, if containers are nested at most `depth` deep, every string is a
text and every number is in range. -/
def ofTree? : Nat → Tree → Option Value
  | _, .null => some .null
  | _, .bool b => some (.bool b)
  | _, .number n => n.value?.map .number
  | _, .string raw => (unquote? raw).map .string
  | 0, .array _ => none
  | 0, .object _ => none
  | depth + 1, .array items => (items.mapM (ofTree? depth)).map .array
  | depth + 1, .object members => do
    let members ← members.mapM fun m => do
      let name ← unquote? m.1
      let v ← ofTree? depth m.2
      return (name, v)
    return .object (sortMembers members)

/-- The value that a text spells. -/
def read? (bytes : Bytes) : Option Value := (Tree.read? bytes).bind (ofTree? maxDepth)

mutual

/-- The compact text of a value. -/
def render : Value → Bytes
  | .null => lowerN :: Token.ull
  | .bool true => lowerT :: Token.rue
  | .bool false => lowerF :: Token.alse
  | .number n => Bytes.ofText n.text
  | .string s => quote s
  | .array items => openBracket :: renderItems items ++ [closeBracket]
  | .object members => openBrace :: renderMembers members ++ [closeBrace]

/-- The texts of the items of an array, with commas between them. -/
def renderItems : List Value → Bytes
  | [] => []
  | [v] => render v
  | v :: w :: rest => render v ++ comma :: renderItems (w :: rest)

/-- The texts of the members of an object, with commas between them. -/
def renderMembers : List (String × Value) → Bytes
  | [] => []
  | [(name, v)] => quote name ++ colon :: render v
  | (name, v) :: m :: rest => quote name ++ colon :: render v ++ comma :: renderMembers (m :: rest)

end

end Value

end PodCache.Json
