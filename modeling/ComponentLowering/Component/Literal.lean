/-
# Literals

Annotations are read from the shape of expressions alone: nothing is evaluated, and parentheses
are expressions of their own, which no literal stands in.
-/
import ComponentLowering.Style.Refs
import ComponentLowering.Syntax.Place

namespace ComponentLowering.Component

open ComponentLowering.Style ComponentLowering.Syntax

/-- Why an expression cannot be read as a literal. -/
inductive LiteralFault where
  | notString | notBoolean | notArray | arraySpread | arrayHole
  | notObject | computedKey | unsupportedKey | objectSpread
  | notCall | argumentSpread
deriving DecidableEq, Repr, Inhabited

/-- The words for a fault. -/
def LiteralFault.message : LiteralFault → String
  | notString => "Not a string literal"
  | notBoolean => "Not a boolean literal"
  | notArray => "Not an array literal"
  | arraySpread => "Spread elements are not supported in annotation arrays"
  | arrayHole => "Holes are not supported in annotation arrays"
  | notObject => "Not an object literal"
  | computedKey => "Computed object keys are not supported"
  | unsupportedKey => "Unsupported object key type"
  | objectSpread => "Unsupported object property type (spread)"
  | notCall => "Not a call expression"
  | argumentSpread => "Spread arguments not supported"

namespace Literal

/-- The name that an expression consists of. -/
def symbol? : Expr → Option String
  | .ident _ name => some name
  | _ => none

/-- The value of a string literal, or of a template without splices. -/
def string : Expr → Except LiteralFault String
  | .string _ value => .ok value.text
  | .template _ [chunk] [] =>
    match chunk.cooked with
    | some text => .ok text
    | none => .error .notString
  | _ => .error .notString

/-- The value of a boolean literal. -/
def boolean : Expr → Except LiteralFault Bool
  | .bool _ value => .ok value
  | _ => .error .notBoolean

/-- Whether an expression is an array literal. -/
def isArray : Expr → Bool
  | .array _ _ => true
  | _ => false

/-- The first element of a list that is no plain expression, as a fault. -/
def plainElements : List Expr → Except LiteralFault (List Expr)
  | [] => .ok []
  | .spread _ _ :: _ => .error .arraySpread
  | .hole _ :: _ => .error .arrayHole
  | e :: rest => do return e :: (← plainElements rest)

/-- The elements of an array literal. -/
def array : Expr → Except LiteralFault (List Expr)
  | .array _ elements => plainElements elements
  | _ => .error .notArray

/-- Whether an expression is an object literal. -/
def isObject : Expr → Bool
  | .object _ _ => true
  | _ => false

/-- The name that a key spells. -/
def keyName : Key → Except LiteralFault String
  | .name _ name => .ok name
  | .string _ value => .ok value.text
  | .computed _ => .error .computedKey
  | .number _ _ _ | .bigint _ _ | .privateName _ _ => .error .unsupportedKey

/-- The keys of an object's members, each with its value. -/
def memberEntries : List Expr → Except LiteralFault (List (String × Expr))
  | [] => .ok []
  | .property _ key value _ :: rest => do return (← keyName key, value) :: (← memberEntries rest)
  | .objectMethod _ _ key fn :: rest => do
    return (← keyName key, .function fn) :: (← memberEntries rest)
  | _ :: _ => .error .objectSpread

/-- The members of an object literal in the order of the text, repeated keys included. -/
def entries : Expr → Except LiteralFault (List (String × Expr))
  | .object _ members => memberEntries members
  | _ => .error .notObject

/-- The members of an object literal.  The last value of a repeated key counts. -/
def object (e : Expr) : Except LiteralFault (List (String × Expr)) :=
  (entries e).map ofPairs

/-- Whether an expression is a call. -/
def isCall : Expr → Bool
  | .call _ _ _ _ _ _ => true
  | _ => false

/-- What a call calls. -/
def callee : Expr → Except LiteralFault Expr
  | .call _ callee _ _ _ _ => .ok callee
  | _ => .error .notCall

/-- The arguments of a list, unless one of them is spread. -/
def plainArguments : List Expr → Except LiteralFault (List Expr)
  | [] => .ok []
  | .spread _ _ :: _ => .error .argumentSpread
  | e :: rest => do return e :: (← plainArguments rest)

/-- The arguments of a call. -/
def arguments : Expr → Except LiteralFault (List Expr)
  | .call _ _ _ args _ _ => plainArguments args
  | _ => .error .notCall

end Literal

end ComponentLowering.Component
