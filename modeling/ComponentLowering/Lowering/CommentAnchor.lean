/-
# Comments of lowered modules

A comment is written in front of the syntax at its anchor.  Where lowering removes or rebuilds
that syntax, the anchor moves; and comments at the top of a module stay there when statements are
put in front of them.
-/
import ComponentLowering.Component.Annotation
import ComponentLowering.Lowering.ClassStatement
import ComponentLowering.Lowering.ModuleState
import ComponentLowering.Syntax.Module

namespace ComponentLowering.Lowering

open ComponentLowering.Component ComponentLowering.Syntax

/-- The offset of the first token of a statement.  Decorators may stand in front of `export`. -/
def leadingOffset (s : Stmt) : Nat :=
  match class? s with
  | none => s.span.start
  | some decl =>
    match decl.decorators with
    | [] => s.span.start
    | d :: _ => min d.span.start s.span.start

/-- The offset of the component decorator of a statement. -/
def componentOffset? (s : Stmt) : Option Nat := do
  let decl ← class? s
  let d ← decl.decorators.find? isComponentDecorator
  return d.span.start

/-- A comment after the first move that starts at its anchor. -/
def relocate (moves : List CommentMove) (c : Comment) : Comment :=
  match moves.find? (·.source == c.anchor) with
  | some move => { c with anchor := move.target }
  | none => c

/-- Comments after some moves. -/
def relocateAll (moves : List CommentMove) (comments : List Comment) : List Comment :=
  comments.map (relocate moves)

/-- Anchors a comment that ends in front of the first token at the top. -/
def pin (firstToken : Nat) (c : Comment) : Comment :=
  if c.span.stop ≤ firstToken then { c with anchor := 0 } else c

/-- Anchors the comments in front of the first token at the top, unless an interpreter line or a
directive comes first. -/
def pinHeader (m : Module) (firstToken : Nat) : Module :=
  if m.hashbang.isSome || !m.directives.isEmpty then m
  else { m with comments := m.comments.map (pin firstToken) }

end ComponentLowering.Lowering
