/-
# Attaching styles

The code that imports the style sheets of a class and attaches them to it.
-/
import ComponentLowering.Code.Spelling
import ComponentLowering.Settings.Options
import ComponentLowering.Style.Ledger
import ComponentLowering.Style.Refs

namespace ComponentLowering.Style

open ComponentLowering.Code ComponentLowering.Settings

/-- The statement that binds a style sheet to a name. -/
def importStatement (convention : Convention) (name path : String) : String :=
  match convention with
  | .esm => "import " ++ name ++ " from " ++ quote path ++ ";"
  | .cjs => "const " ++ name ++ " = require(" ++ quote path ++ ");"

/-- A style sheet under the name that it is bound to. -/
structure Binding where
  key : Option String
  name : String
deriving DecidableEq, Repr, Inhabited

/-- The code for the styles of a class: a statement for each sheet that is imported for the first
time, and the assignment that attaches all of them. -/
structure Plan where
  imports : List String
  assignment : String
deriving DecidableEq, Repr, Inhabited

/-- Hoists style sheets one after the other. -/
def hoistAll (convention : Convention) (className : String) :
    List Entry → Ledger → List String × List Binding × Ledger
  | [], l => ([], [], l)
  | e :: rest, l =>
    let (hoisted, l) := l.hoist className e.key e.path
    let (imports, bindings, l) := hoistAll convention className rest l
    let imports := if hoisted.isNew then importStatement convention hoisted.name e.path :: imports
      else imports
    (imports, ⟨e.key, hoisted.name⟩ :: bindings, l)

/-- The items of a list without those that stood in it before. -/
def distinct : List String → List String
  | [] => []
  | a :: rest => a :: (distinct rest).filter (· != a)

/-- One member of the object that holds the styles. -/
def styleMember (b : Binding) : String := propertyKey (b.key.getD "") ++ ": " ++ b.name

/-- The value that holds the styles: their sum, or an object with a member for each key. -/
def styleValue (refs : Refs) (bindings : List Binding) : String :=
  match refs with
  | .sequence _ => " + ".intercalate (distinct (bindings.map (·.name)))
  | .mapping _ => "\x7b " ++ ", ".intercalate (bindings.map styleMember) ++ " \x7d"

/-- The code for the styles of a class, if it has any. -/
def plan (className : String) (refs : Refs) (convention : Convention) (l : Ledger) :
    Option Plan × Ledger :=
  if refs.isEmpty then (none, l)
  else
    let (imports, bindings, l) := hoistAll convention className refs.entries l
    (some { imports, assignment := className ++ ".style = " ++ styleValue refs bindings ++ ";" }, l)

end ComponentLowering.Style
