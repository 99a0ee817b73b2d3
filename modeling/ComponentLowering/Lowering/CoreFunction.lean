/-
# Functions of the core module

Lowered classes call functions of the core module.  Each is bound to a local name that is not
likely to be used elsewhere.
-/

namespace ComponentLowering.Lowering

/-- The functions that lowered classes call. -/
inductive CoreFunction where
  /-- Registers an instance with its host. -/
  | registerInstance
  /-- Gives the element of an instance. -/
  | getElement
deriving DecidableEq, Repr, Inhabited

namespace CoreFunction

/-- The name under which a function is exported. -/
def exportedName : CoreFunction → String
  | registerInstance => "registerInstance"
  | getElement => "getElement"

/-- The name that a function is bound to. -/
def localName : CoreFunction → String
  | registerInstance => "__stencil_registerInstance"
  | getElement => "__stencil_getElement"

end CoreFunction

/-- The functions that a module uses. -/
structure CoreUse where
  registerInstance : Bool := false
  getElement : Bool := false
deriving DecidableEq, Repr, Inhabited

namespace CoreUse

/-- The functions of a set, in a fixed order. -/
def functions (u : CoreUse) : List CoreFunction :=
  (if u.registerInstance then [.registerInstance] else [])
    ++ (if u.getElement then [.getElement] else [])

/-- Adds a function. -/
def insert (u : CoreUse) : CoreFunction → CoreUse
  | .registerInstance => { u with registerInstance := true }
  | .getElement => { u with getElement := true }

end CoreUse

end ComponentLowering.Lowering
