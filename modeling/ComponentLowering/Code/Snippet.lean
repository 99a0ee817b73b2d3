/-
# Snippets

Code that the compiler makes up is written as text and read by the grammar of plain modules.  What
is read stands nowhere in the module that it is put into, so it carries no places.
-/
import ComponentLowering.Report.Failure
import ComponentLowering.Syntax.Detached
import ComponentLowering.Syntax.Module

namespace ComponentLowering.Code

open ComponentLowering.Report ComponentLowering.Syntax

/-- The line that a syntax error is reported by. -/
def describe (e : SyntaxError) : String :=
  "unexpected text at byte " ++ String.ofList (Nat.toDigits 10 e.offset)

/-- Reads statements.  Directives at the start of the text are none. -/
def statements (text : String) : Except Failure (List Stmt) :=
  match Module.read .plain text.toList with
  | .error e => .error (.unbuildable text (describe e))
  | .ok m => .ok (detachStmts m.body)

/-- Reads the first statement of a text. -/
def statement (text : String) : Except Failure Stmt := do
  match ← statements text with
  | s :: _ => return s
  | [] => throw (.unbuildable text "no statement found")

/-- The text of a class with the given members. -/
def classAround (members : String) : String := "class _ \x7b " ++ members ++ " \x7d"

/-- Reads the members of a class. -/
def classMembers (text : String) : Except Failure (List Member) := do
  match ← statements (classAround text) with
  | .classDecl decl :: _ => return decl.members
  | _ => throw (.unbuildable (classAround text) "no class found")

end ComponentLowering.Code
