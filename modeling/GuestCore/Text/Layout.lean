/-!
# Layout of Diagnostic Text

Diagnostic text shows records as a name with named fields in braces, lists in brackets, and an
optional part as `None` or `Some`.  A record may end with two dots for the fields it leaves out.
-/

namespace GuestCore.Text

/-- Items separated by a comma and a blank. -/
def commaSeparated (items : List String) : String :=
  ", ".intercalate items

def bracketed (items : List String) : String :=
  "[" ++ commaSeparated items ++ "]"

/-- Parts in braces behind a name. -/
def braced (name : String) (parts : List String) : String :=
  name ++ " \x7b " ++ commaSeparated parts ++ " \x7d"

/-- A field of a record: its name, a colon and its text. -/
def fieldText (field : String × String) : String :=
  field.1 ++ ": " ++ field.2

/-- A record with all its fields. -/
def record (name : String) (fields : List (String × String)) : String :=
  braced name (fields.map fieldText)

/-- A record that does not show all its fields. -/
def openRecord (name : String) (fields : List (String × String)) : String :=
  braced name (fields.map fieldText ++ [".."])

/-- A name applied to one part. -/
def tagged (name : String) (part : String) : String :=
  name ++ "(" ++ part ++ ")"

def optional : Option String → String
  | none => "None"
  | some part => tagged "Some" part

def truth (b : Bool) : String :=
  if b then "true" else "false"

end GuestCore.Text
