/-
# Operators

The spelling of each operator and how tightly it binds.
-/
import ComponentLowering.Syntax.Tree

namespace ComponentLowering.Syntax

/-- How tightly a construct binds its operands; larger numbers bind more tightly. -/
abbrev Tightness := Nat

namespace Tightness

/-- A whole expression. -/
def lowest : Tightness := 0
/-- The comma operator.  What binds more tightly may be an item of a list. -/
def comma : Tightness := 1
/-- A value that a generator hands out. -/
def yielded : Tightness := 3
/-- Assignments and arrow functions. -/
def assign : Tightness := 4
/-- The conditional operator. -/
def choice : Tightness := 5
/-- The operator `??`. -/
def coalesce : Tightness := 6
/-- Equality. -/
def equality : Tightness := 12
/-- Comparison. -/
def compare : Tightness := 13
/-- Shifts.  What binds as tightly needs no parentheses around a type assertion. -/
def shift : Tightness := 14
/-- Powers. -/
def power : Tightness := 17
/-- Operators in front of their operand. -/
def prefixed : Tightness := 18
/-- Operators behind their operand. -/
def postfixed : Tightness := 19
/-- Constructions. -/
def construct : Tightness := 20
/-- Calls. -/
def call : Tightness := 21
/-- Member accesses. -/
def member : Tightness := 22

end Tightness

namespace BinaryOp

/-- How an operator is written. -/
def spelling : BinaryOp → String
  | coalesce => "??" | or => "||" | and => "&&"
  | bitOr => "|" | bitXor => "^" | bitAnd => "&"
  | equal => "==" | notEqual => "!=" | strictEqual => "===" | strictNotEqual => "!=="
  | less => "<" | lessEqual => "<=" | greater => ">" | greaterEqual => ">="
  | instanceOf => "instanceof" | isIn => "in"
  | shiftLeft => "<<" | shiftRight => ">>" | shiftRightZero => ">>>"
  | add => "+" | subtract => "-" | multiply => "*" | divide => "/" | remainder => "%"
  | power => "**"

/-- How tightly an operator binds. -/
def tightness : BinaryOp → Tightness
  | coalesce => 6 | or => 7 | and => 8 | bitOr => 9 | bitXor => 10 | bitAnd => 11
  | equal | notEqual | strictEqual | strictNotEqual => 12
  | less | lessEqual | greater | greaterEqual | instanceOf | isIn => 13
  | shiftLeft | shiftRight | shiftRightZero => 14
  | add | subtract => 15
  | multiply | divide | remainder => 16
  | power => 17

/-- What an operand in front of the operator must bind more tightly than. -/
def leftBound (op : BinaryOp) : Tightness :=
  if op == .power then op.tightness else op.tightness - 1

/-- What an operand behind the operator must bind more tightly than.  Powers and the logical
operators may be repeated there without parentheses. -/
def rightBound (op : BinaryOp) : Tightness :=
  match op with
  | .power | .coalesce | .or | .and => op.tightness - 1
  | _ => op.tightness

end BinaryOp

/-- How an assignment operator is written. -/
def AssignOp.spelling : AssignOp → String
  | plain => "="
  | combined op => op.spelling ++ "="

/-- How an operator in front of its operand is written. -/
def UnaryOp.spelling : UnaryOp → String
  | negate => "-" | plus => "+" | not => "!" | complement => "~"
  | typeOf => "typeof" | void => "void" | delete => "delete"

/-- Operators that are words need a space in front of their operand. -/
def UnaryOp.isWord : UnaryOp → Bool
  | typeOf | void | delete => true
  | _ => false

/-- How an operator that changes a variable is written. -/
def UpdateOp.spelling : UpdateOp → String
  | increment => "++"
  | decrement => "--"

/-- How a variable keyword is written. -/
def VariableKind.spelling : VariableKind → String
  | .var => "var" | .let => "let" | .const => "const" | .using => "using"
  | .awaitUsing => "await using"

/-- How a visibility is written. -/
def Access.spelling : Access → String
  | openAccess => "public" | guarded => "protected" | closed => "private"

end ComponentLowering.Syntax
