/-
# Constructors

A lowered class has a constructor that takes the host.  It replaces the first constructor of the
class and goes on with the statements of that one; otherwise it becomes the first member.
-/
import ComponentLowering.Code.Snippet
import ComponentLowering.Lowering.Injection

namespace ComponentLowering.Lowering

open ComponentLowering.Code ComponentLowering.Report ComponentLowering.Syntax

/-- Whether a member is a constructor, or the signature of one. -/
def isConstructor : Member → Bool
  | .method m => m.kind == .constructor
  | _ => false

/-- The position of the first constructor. -/
def constructorIndex? (members : List Member) : Option Nat := members.findIdx? isConstructor

/-- The same member at another place. -/
def Member.at (span : Span) : Member → Member
  | .method m => .method { m with span }
  | .field f => .field { f with span }
  | .accessor f => .accessor { f with span }
  | .staticBlock _ body => .staticBlock span body
  | .indexSignature _ isReadonly name key result =>
    .indexSignature span isReadonly name key result

/-- The number of parameters of a member. -/
def parameterCount : Member → Nat
  | .method m => m.fn.params.length
  | _ => 0

/-- The statements in the body of a method; its directives are none. -/
def bodyStatements : Member → List Stmt
  | .method m =>
    match m.fn.body with
    | .block _ _ statements => statements
    | _ => []
  | _ => []

/-- A method whose body goes on with further statements. -/
def withStatements (more : List Stmt) : Member → Member
  | .method m =>
    match m.fn.body with
    | .block span directives statements =>
      .method { m with fn := { m.fn with body := .block span directives (statements ++ more) } }
    | _ => .method m
  | other => other

/-- A class with a constructor of its own, and the number of parameters that were dropped. -/
structure Constructed where
  dropped : Nat
  members : List Member

/-- Puts the constructor with the given statements into a class. -/
def installConstructor (members : List Member) (injected : List String) :
    Except Failure Constructed := do
  let text := constructorText injected
  match ← classMembers text with
  | [] => throw (.unbuildable text "no constructor found")
  | made :: _ =>
    match constructorIndex? members with
    | none => return { dropped := 0, members := made :: members }
    | some i =>
      match members[i]? with
      | none => return { dropped := 0, members := made :: members }
      | some old =>
        let new := withStatements (bodyStatements old) (Member.at old.span made)
        return { dropped := parameterCount old, members := members.set i new }

end ComponentLowering.Lowering
