/-
# Places in a printed text

What the place of an expression or a statement asks of it, and the shapes of syntax that decide
whether parentheses, a key or a line of its own are needed.
-/
import ComponentLowering.Syntax.Operator
import ComponentLowering.Syntax.Wrapped

namespace ComponentLowering.Syntax

open ComponentLowering.Text ComponentLowering.Number

/-- What may not stand bare in a place: an `in` operator in the head of a loop, and a call behind
`new`.  What is forbidden stays so inside the bodies of the functions that stand there. -/
structure Bans where
  noIn : Bool := false
  noCall : Bool := false

/-- What the place of an expression asks of it: to bind more tightly than a bound, and to leave out
what is forbidden there. -/
structure Slot extends Bans where
  bound : Tightness

namespace Bans

/-- Nothing is forbidden. -/
def none : Bans := {}

/-- What is forbidden in the head of a loop. -/
def head : Bans := { noIn := true }

/-- What stays forbidden inside a function or a class, where a call stands by itself. -/
def callable (bans : Bans) : Bans := { noIn := bans.noIn }

/-- A place for an expression. -/
def slot (bans : Bans) (bound : Tightness) : Slot := { toBans := bans, bound }

end Bans

namespace Slot

/-- A place for a whole expression. -/
def whole : Slot := { bound := .lowest }

/-- A place for an item of a list. -/
def item : Slot := { bound := .comma }

/-- The place of an operand inside an expression, which passes on what is forbidden. -/
def operand (slot : Slot) (bound : Tightness) : Slot := { slot with bound }

/-- The place of an operand of which only calls stay forbidden. -/
def object (slot : Slot) : Slot := { bound := .postfixed, noCall := slot.noCall }

/-- The place of an operand of which only the `in` operator stays forbidden. -/
def side (slot : Slot) (bound : Tightness) : Slot := { bound, noIn := slot.noIn }

/-- A place inside parentheses, if they are needed. -/
def inside (slot : Slot) (wrap : Bool) : Slot := if wrap then { slot with noIn := false } else slot

end Slot

/-- Where a statement stands. -/
inductive Placement where
  /-- On a line of its own, led by its comments. -/
  | line
  /-- As the body of the statement in front of it. -/
  | attached
  /-- Behind a word on the same line. -/
  | chained
  /-- Behind a word, without the end of the line. -/
  | inner
  /-- In the head of a loop. -/
  | head
deriving DecidableEq

/-! ### Statements -/

namespace Stmt

/-- Whether a statement is a block. -/
def isBlock : Stmt → Bool
  | .block _ _ => true
  | _ => false

/-- Whether a statement is a branch. -/
def isBranch : Stmt → Bool
  | .branch _ _ _ _ => true
  | _ => false

/-- Whether a statement is an interface. -/
def isInterface : Stmt → Bool
  | .interface _ _ _ _ _ => true
  | _ => false

/-- Whether a statement is empty. -/
def isEmpty : Stmt → Bool
  | .empty _ => true
  | _ => false

/-- Whether a statement is a function whose calls are pure. -/
def isPureFunction : Stmt → Bool
  | .function fn => fn.isPure
  | _ => false

/-- The string that a statement consists of. -/
def bareString? : Stmt → Option StringValue
  | .expression _ value =>
    match value.bare with
    | .string _ s => some s
    | _ => none
  | _ => none

/-- Whether the head of a loop consists of the name `async`, which could begin a function. -/
def isAsyncName : Stmt → Bool
  | .assignee (.ident _ name) => name == "async"
  | _ => false

mutual

/-- Whether an `else` behind a statement would belong to a branch inside it. -/
def leavesBranchOpen : Stmt → Bool
  | .branch _ _ _ no => leavesOpen? no
  | .forLoop _ _ _ _ body | .forIn _ _ _ body | .forOf _ _ _ _ body | .whileLoop _ _ body
  | .withObject _ _ body | .labeled _ _ body => body.leavesBranchOpen
  | _ => false

/-- Whether an `else` behind a branch with the given alternative would belong to it. -/
def leavesOpen? : Option Stmt → Bool
  | none => true
  | some no => no.leavesBranchOpen

end

end Stmt

/-! ### Properties and patterns -/

/-- Whether the last element of an array is missing. -/
def endsInHole (elements : List Expr) : Bool :=
  match elements.getLast? with
  | some (.hole _) => true
  | _ => false

/-- Whether a property can be written by the name of its value alone. -/
def isShorthand (key : Key) (value : Expr) (shorthand : Bool) : Bool :=
  match key, value.bare with
  | .name _ k, .ident _ v => if k == "__proto__" then shorthand else k == v
  | .name _ k, _ => k == "__proto__" && shorthand
  | _, _ => false

/-- The variable that a pattern consists of, whatever type or default value it has. -/
def Pattern.variable? : Pattern → Option String
  | .ident _ name => some name
  | .annotated target _ _ | .withDefault _ target _ => target.variable?
  | _ => none

/-- Whether a property of a binding pattern can be written without its key, which is the name of
its variable. -/
def isShorthandBinding (key : Key) (value : Pattern) : Bool :=
  match key with
  | .name _ k => value.variable? == some k
  | _ => false

/-- Whether a key is a number that no key may spell. -/
def Key.isInfinite : Key → Bool
  | .number _ .infinite _ => true
  | _ => false

namespace Pattern

/-- Whether a pattern takes an object apart. -/
def isObject : Pattern → Bool
  | .object _ _ => true
  | _ => false

/-- Whether a pattern collects what is left over. -/
def isRest : Pattern → Bool
  | .rest _ _ => true
  | _ => false

/-- Whether a pattern is a hole. -/
def isHole : Pattern → Bool
  | .hole _ => true
  | _ => false

end Pattern

/-! ### Expressions -/

/-- Whether a decorator is written without parentheses: a name, a member that is reached by
dots, or a call of one. -/
def isPlainDecorator : Expr → Bool
  | .ident _ _ | .member _ _ _ _ | .privateMember _ _ _ _ => true
  | .call _ callee _ _ _ _ => isPlainDecorator callee
  | _ => false

/-- What the left operand of an operator must bind more tightly than. -/
def leftBoundOf (op : BinaryOp) (left : Expr) : Tightness :=
  match op, left.bare with
  | .coalesce, .binary _ .or _ _ | .coalesce, .binary _ .and _ _ => .prefixed
  | .power, .unary _ _ _ => .call
  | _, _ => op.leftBound

/-- What the right operand of an operator must bind more tightly than. -/
def rightBoundOf (op : BinaryOp) (right : Expr) : Tightness :=
  match op, right.bare with
  | .coalesce, .binary _ .or _ _ | .coalesce, .binary _ .and _ _ => .prefixed
  | _, _ => op.rightBound

namespace Expr

/-- Whether an expression is a function that was read in parentheses, which it keeps. -/
def keepsParens : Expr → Bool
  | .function fn => fn.parenthesized
  | _ => false

end Expr

/-- Whether a type is the type of a plain function. -/
def TypeNode.isPlainFunction : TypeNode → Bool
  | .function _ isNew _ _ _ _ => !isNew
  | _ => false

end ComponentLowering.Syntax
