/-
# The import of the core module

One statement binds all functions of the core module that the lowered classes call.
-/
import ComponentLowering.Code.Spelling
import ComponentLowering.Lowering.CoreFunction
import ComponentLowering.Settings.Options

namespace ComponentLowering.Lowering

open ComponentLowering.Code ComponentLowering.Settings

/-- The statement that binds core functions, if there are any to bind. -/
def coreStatement? (convention : Convention) (corePath : String) (used : CoreUse) :
    Option String :=
  let bindings (separator : String) :=
    ", ".intercalate (used.functions.map fun f => f.exportedName ++ separator ++ f.localName)
  match used.functions, convention with
  | [], _ => none
  | _, .esm =>
    some ("import \x7b " ++ bindings " as " ++ " \x7d from " ++ quote corePath ++ ";")
  | _, .cjs =>
    some ("const \x7b " ++ bindings ": " ++ " \x7d = require(" ++ quote corePath ++ ");")

end ComponentLowering.Lowering
