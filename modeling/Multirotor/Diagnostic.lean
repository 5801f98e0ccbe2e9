/-!
# Diagnostic text

How structured values are written in the journal and in error reports: a constructor with its
arguments, a record with named fields, and a list.
-/

namespace Multirotor.Diagnostic

/-- A constructor applied to its arguments, as in `Name(a, b)`; a bare name without arguments. -/
def variant (name : String) (arguments : List String) : String :=
  if arguments.isEmpty then name else name ++ "(" ++ ", ".intercalate arguments ++ ")"

/-- A record with its fields in order, as in `Name \x7b a: 1, b: 2 \x7d`. -/
def record (name : String) (fields : List (String × String)) : String :=
  let items := fields.map fun field => field.1 ++ ": " ++ field.2
  name ++ " \x7b " ++ ", ".intercalate items ++ " \x7d"

/-- The items of a list in square brackets. -/
def list (items : List String) : String := "[" ++ ", ".intercalate items ++ "]"

/-- A value that may be absent. -/
def option : Option String → String
  | none => "None"
  | some item => variant "Some" [item]

end Multirotor.Diagnostic
