import GuestCore.Integer.Literal
import GuestCore.World

/-!
# Texts of Values

The display text is what a program shows; the diagnostic text tells the kinds of values apart.
Objects may contain themselves, so neither text shows their contents.
-/

namespace GuestCore.Value

mutual

def display (world : World) : Value → String
  | null => "NULL"
  | integer value => Integer.display value
  | boolean value => Text.truth value
  | text _ content => content
  | function id => (world.functionState id).name
  | object _ => "Object"
  | list _ items => Text.bracketed (displayAll world items)

def displayAll (world : World) : List Value → List String
  | [] => []
  | item :: rest => display world item :: displayAll world rest

end

mutual

def debug (world : World) : Value → String
  | null => "Null"
  | integer value => Integer.debug value
  | boolean value => Text.tagged "Boolean" (Text.truth value)
  | text _ content => Text.tagged "Str" (Text.quoted content)
  | function id => (world.functionState id).debug
  | object id => (world.members id).debug
  | list _ items => Text.tagged "List" (Text.bracketed (debugAll world items))

def debugAll (world : World) : List Value → List String
  | [] => []
  | item :: rest => debug world item :: debugAll world rest

end

end GuestCore.Value
