/-
# ClassDef bodies

Lowering takes the component decorator and the members that held the element or its internals out
of a class, gives it its constructor, and adds the accessors that replace the members.
-/
import ComponentLowering.Component.Annotation
import ComponentLowering.Lowering.Constructor
import ComponentLowering.Lowering.ModuleState

namespace ComponentLowering.Lowering

open ComponentLowering.Code ComponentLowering.Component ComponentLowering.Report
open ComponentLowering.Syntax

/-- Whether a field is replaced by lowering a component. -/
def isLoweredField (c : Component) : Member → Bool
  | .field f =>
    !f.isStatic && (fieldKind f).isSome
      && (match fieldName f with
        | some name => c.members.any fun m => m.isLowered && m.name == name
        | none => false)
  | _ => false

/-- The offsets at which the replaced fields of a class start. -/
def loweredOffsets (c : Component) (members : List Member) : List Nat :=
  (members.filter (isLoweredField c)).map (·.span.start)

/-- The warning about dropped parameters. -/
def droppedWarning (className : String) (dropped : Nat) : List Diagnostic :=
  if dropped = 0 then []
  else
    [.warning .constructorParametersDropped (some className)
      ("constructor now takes `" ++ hostName ++ "`; " ++ String.ofList (Nat.toDigits 10 dropped)
        ++ " declared parameter(s) were dropped and may still be referenced")]

/-- Moves the comments of a field that is gone to the next member, or to the constructor when no
member follows.  A constructor without a place is put where the field was. -/
def moveFieldComments (offset : Nat) (members : List Member) (s : ModuleState) :
    List Member × ModuleState :=
  match members.find? fun m => offset < m.span.start with
  | some next => (members, s.moveComments offset next.span.start)
  | none =>
    match constructorIndex? members with
    | none => (members, s)
    | some i =>
      match members[i]? with
      | none => (members, s)
      | some m =>
        if m.span.start = 0 then
          (members.set i (Member.at (.point offset) m), s.moveComments offset offset)
        else (members, s.moveComments offset m.span.start)

/-- Moves the comments of all fields that are gone. -/
def moveAllComments : List Nat → List Member → ModuleState → List Member × ModuleState
  | [], members, s => (members, s)
  | offset :: rest, members, s =>
    let (members, s) := moveFieldComments offset members s
    moveAllComments rest members s

/-- A lowered class with the warnings raised on the way. -/
structure LoweredClass where
  decl : ClassDef
  state : ModuleState
  warnings : List Diagnostic

/-- Lowers the class of a component. -/
def lowerClass (decl : ClassDef) (c : Component) (s : ModuleState) :
    Except Failure LoweredClass := do
  let kept := decl.members.filter fun m => !isLoweredField c m
  let constructed ← installConstructor kept (constructorStatements c)
  let s := s.useCore .registerInstance
  let (members, s) := moveAllComments (loweredOffsets c decl.members) constructed.members s
  let appended := appendedMembers c
  let added ← if appended.isEmpty then pure [] else classMembers ("\n".intercalate appended)
  let s := if c.elementMembers.isEmpty then s else s.useCore .getElement
  return {
    decl := { decl with
      decorators := decl.decorators.filter fun d => !isComponentDecorator d
      members := members ++ added }
    state := s
    warnings := droppedWarning c.className constructed.dropped }

end ComponentLowering.Lowering
