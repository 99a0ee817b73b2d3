/-
# Components

What the annotations of a class say about the component that it implements.
-/
import ComponentLowering.Report.Diagnostic
import ComponentLowering.Style.Refs

namespace ComponentLowering.Component

/-- The decorator that makes a class a component. -/
def componentDecorator : String := "Component"

/-- The decorator of a member that holds the element of the component. -/
def elementDecorator : String := "Element"

/-- The decorator of a member that holds the internals of the element. -/
def internalsDecorator : String := "AttachInternals"

/-- The decorators that lowering removes. -/
def loweredDecorators : List String := [componentDecorator, elementDecorator, internalsDecorator]

/-- What a decorated member is. -/
inductive MemberKind where
  /-- It holds the element. -/
  | element
  /-- It holds the internals of the element. -/
  | internals
  /-- It is left alone; its decorator has the given name. -/
  | other (decorator : String)
deriving DecidableEq, Repr, Inhabited

/-- A decorated member of a component. -/
structure AnnotatedMember where
  name : String
  kind : MemberKind
deriving DecidableEq, Repr, Inhabited

/-- Whether lowering replaces a member. -/
def AnnotatedMember.isLowered (m : AnnotatedMember) : Bool :=
  match m.kind with
  | .element | .internals => true
  | .other _ => false

end ComponentLowering.Component

namespace ComponentLowering

open Component Report Style

/-- A class that implements a custom element, and what its annotations say about it. -/
structure Component where
  className : String
  tag : String
  styles : Option Refs
  formAssociated : Bool
  members : List AnnotatedMember
  warnings : List Diagnostic
deriving DecidableEq, Repr, Inhabited

namespace Component

/-- The names of the members that hold the element. -/
def elementMembers (c : Component) : List String :=
  (c.members.filter (·.kind == .element)).map (·.name)

/-- The names of the members that hold the internals. -/
def internalsMembers (c : Component) : List String :=
  (c.members.filter (·.kind == .internals)).map (·.name)

/-- What a class turns out to be. -/
inductive ClassReading where
  /-- It is no component. -/
  | plain
  /-- It claims to be a component but cannot be used as one. -/
  | skipped (reason : Diagnostic)
  /-- It is a component. -/
  | component (c : Component)
deriving DecidableEq, Repr, Inhabited

end Component

end ComponentLowering
