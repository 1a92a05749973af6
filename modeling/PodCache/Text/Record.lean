import PodCache.Text.Quoted

/-!
# Text of a record

A value is described by its type's name and its fields in order between braces.  An open record
ends in two dots: it has further parts that are not shown.
-/

namespace PodCache.Text

/-- A field's name and the text of its content. -/
abbrev Field := String × String

/-- The text of one field. -/
def fieldText (f : Field) : String := f.1 ++ ": " ++ f.2

/-- The text of a record with all its fields. -/
def record (name : String) (fields : List Field) : String :=
  name ++ " \x7b " ++ ", ".intercalate (fields.map fieldText) ++ " \x7d"

/-- The text of a record some of whose parts are not shown. -/
def openRecord (name : String) (fields : List Field) : String :=
  name ++ " \x7b " ++ ", ".intercalate (fields.map fieldText ++ [".."]) ++ " \x7d"

/-- The text of a truth value. -/
def truth (b : Bool) : String := if b then "true" else "false"

/-- The text of a quoted value that may be absent. -/
def optionalQuoted : Option String → String
  | none => "None"
  | some s => "Some(" ++ quoted s ++ ")"

end PodCache.Text
