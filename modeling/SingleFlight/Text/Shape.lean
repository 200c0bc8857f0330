/-!
# Descriptions of values

The one-line description of a compound value: a name with fields in braces, a name with arguments
in parentheses, a list in brackets, a table in braces.
-/

namespace SingleFlight.Text

/-- The parts with the separator between them. -/
def joined (separator : String) (parts : List String) : String :=
  separator.intercalate parts

/-- A name followed by its fields, each with its own name. -/
def fields (name : String) (parts : List (String × String)) : String :=
  name ++ " \x7b " ++ joined ", " (parts.map fun (field, value) => field ++ ": " ++ value) ++ " \x7d"

/-- A name followed by one argument. -/
def applied (name argument : String) : String :=
  name ++ "(" ++ argument ++ ")"

/-- The elements of a list. -/
def listed (parts : List String) : String :=
  "[" ++ joined ", " parts ++ "]"

/-- The entries of a table, each a key with its value. -/
def tabled (parts : List (String × String)) : String :=
  "\x7b" ++ joined ", " (parts.map fun (key, value) => key ++ ": " ++ value) ++ "\x7d"

/-- An optional part. -/
def optional (describe : α → String) : Option α → String
  | none => "None"
  | some a => applied "Some" (describe a)

end SingleFlight.Text
