/-!
# Records and lists as text

How a value is shown to a programmer: a record as its name and its fields in order, a list between
square brackets.
-/

namespace Semispace.Text

/-- A record: its name, then its fields in order. -/
def record (name : String) (fields : List (String × String)) : String :=
  name ++ " \x7b " ++ ", ".intercalate (fields.map fun f => f.1 ++ ": " ++ f.2) ++ " \x7d"

/-- A list between square brackets. -/
def sequence (items : List String) : String :=
  "[" ++ ", ".intercalate items ++ "]"

end Semispace.Text
