/-!
# Records on one line

A record is written as its name and, in braces, its fields with their names, separated by
commas.
-/
namespace NesMachine.Text

def truth : Bool → String
  | true => "true"
  | false => "false"

def field (name value : String) : String := name ++ ": " ++ value

def record (name : String) (fields : List String) : String :=
  name ++ " \x7b " ++ ", ".intercalate fields ++ " \x7d"

end NesMachine.Text
