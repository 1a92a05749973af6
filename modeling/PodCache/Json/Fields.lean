import PodCache.Json.Value

/-!
# Records in JSON

A record of named fields is spelled as an object, whose members may come in any order, or as an
array of the fields in their fixed order.  Members with other names are skipped whatever they hold,
a field that comes twice is refused, and fields at the end of an array may be left out.
`Tree.fields?` finds the trees of the fields; whether a missing one has a default, and what a field
may hold, is up to the record.
-/

namespace PodCache.Json.Tree

/-- The members of an object with their names as texts. -/
def namedMembers? (members : List (Bytes × Tree)) : Option (List (String × Tree)) :=
  members.mapM fun m => (unquote? m.1).map fun name => (name, m.2)

/-- The tree of a field that comes at most once. -/
def atMostOnce? (members : List (String × Tree)) (name : String) : Option (Option Tree) :=
  match members.filter fun m => m.1 == name with
  | [] => some none
  | [m] => some (some m.2)
  | _ => none

/-- The trees of the fields `names`, in this order; `none` for one that is missing. -/
def fields? (names : List String) : Tree → Option (List (Option Tree))
  | .object members => do
    let members ← namedMembers? members
    names.mapM (atMostOnce? members)
  | .array items =>
    if items.length ≤ names.length then
      some (items.map some ++ List.replicate (names.length - items.length) none)
    else none
  | _ => none

/-- A text. -/
def string? : Tree → Option String
  | .string raw => unquote? raw
  | _ => none

/-- An integer of either sign. -/
def int? : Tree → Option Int
  | .number n => n.int?
  | _ => none

/-- An integer that fits an unsigned 64-bit word. -/
def word? (t : Tree) : Option UInt64 := do
  let n ← t.int?
  if 0 ≤ n ∧ n < 0x10000000000000000 then some (UInt64.ofNat n.toNat) else none

/-- An integer that fits a signed 64-bit word. -/
def long? (t : Tree) : Option Int64 := do
  let n ← t.int?
  if -0x8000000000000000 ≤ n ∧ n < 0x8000000000000000 then some (Int64.ofInt n) else none

/-- An integer that fits a signed 32-bit word. -/
def short? (t : Tree) : Option Int32 := do
  let n ← t.int?
  if -0x80000000 ≤ n ∧ n < 0x80000000 then some (Int32.ofInt n) else none

/-- A truth value. -/
def bool? : Tree → Option Bool
  | .bool b => some b
  | _ => none

/-- A value or nothing, which is spelled `null`. -/
def optional? {α : Type} (read : Tree → Option α) : Tree → Option (Option α)
  | .null => some none
  | t => (read t).map some

/-- A field that must be there. -/
def required? {α : Type} (read : Tree → Option α) (field : Option Tree) : Option α :=
  field.bind read

/-- A field that has a default when it is missing. -/
def orDefault? {α : Type} (default : α) (read : Tree → Option α) : Option Tree → Option α
  | none => some default
  | some t => read t

end PodCache.Json.Tree
