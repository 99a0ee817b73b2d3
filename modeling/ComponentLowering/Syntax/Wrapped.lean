/-
# Wrapped expressions

An expression may stand in parentheses, and types may be claimed for it.  What is inside decides
what the expression denotes.
-/
import ComponentLowering.Syntax.Tree

namespace ComponentLowering.Syntax

namespace Expr

/-- An expression without the parentheses around it. -/
def bare : Expr → Expr
  | .paren _ inner => inner.bare
  | e => e

/-- An expression without the parentheses and the types around it. -/
def untyped : Expr → Expr
  | .paren _ inner | .asType _ inner _ | .satisfies _ inner _ | .typeAssertion _ _ inner
  | .nonNull _ inner | .instantiate _ inner _ => inner.untyped
  | e => e

/-- Whether an expression is a name or a member of something that is there. -/
def isPlace : Expr → Bool
  | .ident _ _ | .member _ _ _ false | .privateMember _ _ _ false | .index _ _ _ false => true
  | _ => false

/-- Whether an expression is the name `let`, whatever types are claimed for it. -/
def isLet (e : Expr) : Bool :=
  match e.untyped with
  | .ident _ name => name == "let"
  | _ => false

/-- An expression apart from the type arguments behind it. -/
def splitTypeArgs : Expr → Expr × List TypeNode
  | .instantiate _ inner args => (inner, args)
  | e => (e, [])

/-- Whether an expression stands in parentheses. -/
def isParen : Expr → Bool
  | .paren _ _ => true
  | _ => false

/-- Whether an expression joins two conditions. -/
def isLogical : Expr → Bool
  | .binary _ op _ _ => [.coalesce, .or, .and].contains op
  | _ => false

end Expr

end ComponentLowering.Syntax
