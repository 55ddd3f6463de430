import GuestCore.Receiver.Messages
import GuestCore.Value.Presentation

/-!
# Texts of Receivers

A view shows a native value unchanged and any other receiver through its probes alone: a null, a
number, a text or a truth value by its content, a function or an object by the name of its type.
-/

namespace GuestCore.Receiver

/-- The text by which the language shows a receiver without a native value. -/
def displayByType (receiver : Receiver) : String :=
  let text : Except Fault String :=
    match receiver.type? with
    | none => .ok "Unsupported"
    | some .null => .ok "NULL"
    | some .number => receiver.asInteger.map Integer.display
    | some .text => receiver.asText
    | some .boolean => receiver.asBoolean.map Text.truth
    | some .function => .ok LanguageType.function.name
    | some .object => .ok LanguageType.object.name
  match text with
  | .ok text => text
  | .error _ => "Unsupported"

/-- The text by which the language shows any receiver. -/
def viewDisplay (world : World) (receiver : Receiver) : String :=
  match receiver.native? with
  | some value => value.display world
  | none => receiver.displayByType

def display (world : World) : Receiver → String
  | native value => value.display world
  | descriptor type => type.name
  | functions _ => "global"
  | foreign value => value.display
  | view delegate => delegate.viewDisplay world

def debug (world : World) : Receiver → String
  | native value => value.debug world
  | descriptor type => type.debug
  | functions registry =>
    Text.record "FunctionsObject" [("functions", (world.registry registry).functions.debug)]
  | foreign value => Text.tagged "Host" value.display
  | view delegate => Text.record "LanguageView" [("delegate", delegate.debug world)]

end GuestCore.Receiver
