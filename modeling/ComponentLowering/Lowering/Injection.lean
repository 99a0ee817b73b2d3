/-
# Injected code

The text of what lowering adds to a class.  The constructor of a lowered class takes the host of
the instance; members that held the element or its internals are replaced by code that asks the
host for them.
-/
import ComponentLowering.Code.Spelling
import ComponentLowering.Component.Metadata
import ComponentLowering.Lowering.CoreFunction

namespace ComponentLowering.Lowering

open ComponentLowering.Code ComponentLowering.Component

/-- The parameter of a lowered constructor. -/
def hostName : String := "hostRef"

/-- The element of the host. -/
def hostElement : String := "hostRef.$hostElement$"

/-- Where the host element keeps its internals once they are attached. -/
def internalsSlot : String := hostElement ++ "[\"s-ei\"]"

/-- The statement that registers the instance. -/
def registerStatement : String :=
  CoreFunction.registerInstance.localName ++ "(this, " ++ hostName ++ ");"

/-- The statement that gives a member the internals, which are attached only once. -/
def internalsStatement (member : String) : String :=
  let target := memberAccess "this" member
  "if (" ++ internalsSlot ++ ") \x7b " ++ target ++ " = " ++ internalsSlot ++ "; \x7d else \x7b "
    ++ target ++ " = " ++ hostElement ++ ".attachInternals(); " ++ internalsSlot ++ " = " ++ target
    ++ "; \x7d"

/-- The accessor of a member that holds the element. -/
def elementGetter (member : String) : String :=
  "get " ++ memberKey member ++ "() \x7b return " ++ CoreFunction.getElement.localName
    ++ "(this); \x7d"

/-- The accessor that makes a component take part in forms. -/
def formAssociatedGetter : String := "static get formAssociated() \x7b return true; \x7d"

/-- The statements at the start of the constructor of a component. -/
def constructorStatements (c : Component) : List String :=
  registerStatement :: c.internalsMembers.map internalsStatement

/-- The accessors behind the other members of a component. -/
def appendedMembers (c : Component) : List String :=
  (if c.formAssociated then [formAssociatedGetter] else []) ++ c.elementMembers.map elementGetter

/-- The text of a constructor that starts with the given statements. -/
def constructorText (injected : List String) : String :=
  "constructor(" ++ hostName ++ ") \x7b " ++ "\n".intercalate injected ++ " \x7d"

end ComponentLowering.Lowering
