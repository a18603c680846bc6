import Lox.Text.Quoted
import Lox.Value.Basic

set_option autoImplicit false

/-!
# Inspection of values

Functions, classes and instances shown with their parts.
-/

namespace Lox

/-- A kind of thing with its named parts. -/
def inspectParts (kind : String) (parts : List (String × String)) : String :=
  let shown := parts.map fun (name, value) => name ++ ": " ++ value
  kind ++ " \x7b " ++ ", ".intercalate shown ++ " \x7d"

def inspectName (name : String) : String :=
  Text.quoteWith Text.escapeInvisible name

def inspectNames (names : List String) : String :=
  "[" ++ ", ".intercalate (names.map inspectName) ++ "]"

def Function.inspect (f : Function) : String :=
  inspectParts "Function" [("name", inspectName f.name), ("arity", toString f.arity),
    ("is_initializer", toString f.isInitializer)]

def Class.inspect (c : Class) : String :=
  let superclass := match c.superclass? with
    | some superclass => "Some(" ++ inspectName superclass.name ++ ")"
    | none => "None"
  inspectParts "Class" [("name", inspectName c.name), ("superclass", superclass),
    ("methods", inspectNames c.own.methods.names)]

def Instance.inspect (i : Instance) (fields : Bindings Value) : String :=
  inspectParts "Instance" [("class", inspectName i.cls.name), ("fields", inspectNames fields.names)]

end Lox
