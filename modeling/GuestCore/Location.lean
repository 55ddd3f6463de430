import GuestCore.Text.Layout
import GuestCore.Text.Quoted

/-!
# Source Locations

A location is a resolved position in a named source: line and column are counted from one.
-/

namespace GuestCore

structure Location where
  file : String
  line : Nat
  column : Nat
deriving DecidableEq, Inhabited

namespace Location

def display (location : Location) : String :=
  location.file ++ ":" ++ location.line.repr ++ ":" ++ location.column.repr

def debug (location : Location) : String :=
  Text.record "SourceLocation"
    [("file", Text.quoted location.file), ("line", location.line.repr),
      ("column", location.column.repr)]

end Location

end GuestCore
