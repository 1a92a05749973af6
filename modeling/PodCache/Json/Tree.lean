import PodCache.Json.Token

/-!
# JSON syntax trees

A `Tree` is a JSON text with its layout removed: the members of an object stay in order and with
their duplicates, and the leaves keep their spelling.  The tokens of a text are consumed one by
one by a machine that holds the open containers on a stack, so the depth of nesting is not
limited.  `Tree.read?` accepts exactly one value with white space around it.
-/

namespace PodCache.Json

/-- A JSON value as it is spelled. -/
inductive Tree where
  | null
  | bool (b : Bool)
  | number (n : Numeral)
  | string (raw : Bytes)
  | array (items : List Tree)
  | object (members : List (Bytes × Tree))

namespace Tree

/-- A container whose end has not been reached, with what it holds so far, last first. -/
inductive Frame where
  | array (done : List Tree)
  /-- An object that waits for the value of `name`. -/
  | object (done : List (Bytes × Tree)) (name : Bytes)

/-- What has been read, and so what may follow. -/
inductive State where
  /-- A value has to follow. -/
  | value (stack : List Frame)
  /-- An array has been opened. -/
  | item (stack : List Frame)
  /-- An object has been opened. -/
  | member (stack : List Frame)
  /-- A comma in an object has been read. -/
  | name (done : List (Bytes × Tree)) (stack : List Frame)
  /-- The name of a member has been read. -/
  | colon (done : List (Bytes × Tree)) (name : Bytes) (stack : List Frame)
  /-- A whole value has been read. -/
  | after (t : Tree) (stack : List Frame)

/-- The value that a single token is. -/
def leaf? : Token → Option Tree
  | .null => some .null
  | .bool b => some (.bool b)
  | .number n => some (.number n)
  | .string raw => some (.string raw)
  | _ => none

/-- The state after the first token of a value. -/
def begin? (stack : List Frame) : Token → Option State
  | .openArray => some (.item stack)
  | .openObject => some (.member stack)
  | t => (leaf? t).map fun leaf => .after leaf stack

/-- The state after one more token. -/
def step? : State → Token → Option State
  | .value stack, t => begin? stack t
  | .item stack, .closeArray => some (.after (.array []) stack)
  | .item stack, t => begin? (.array [] :: stack) t
  | .member stack, .closeObject => some (.after (.object []) stack)
  | .member stack, .string raw => some (.colon [] raw stack)
  | .name done stack, .string raw => some (.colon done raw stack)
  | .colon done name stack, .colon => some (.value (.object done name :: stack))
  | .after t (.array done :: stack), .comma => some (.value (.array (t :: done) :: stack))
  | .after t (.array done :: stack), .closeArray =>
    some (.after (.array (t :: done).reverse) stack)
  | .after t (.object done name :: stack), .comma => some (.name ((name, t) :: done) stack)
  | .after t (.object done name :: stack), .closeObject =>
    some (.after (.object ((name, t) :: done).reverse) stack)
  | _, _ => none

/-- The value that a sequence of tokens spells. -/
def ofTokens? (tokens : List Token) : Option Tree :=
  match tokens.foldlM step? (.value []) with
  | some (.after t []) => some t
  | _ => none

/-- The value that a text spells. -/
def read? (bytes : Bytes) : Option Tree := (Token.scan bytes).bind ofTokens?

end Tree

end PodCache.Json
