/-
# ClassDef statements

The classes of a module are those that its statements declare, exported or not.  A lowered class
becomes a constant or stays a declaration, and keeps or loses its export.
-/
import ComponentLowering.Code.Snippet
import ComponentLowering.Settings.Options
import ComponentLowering.Syntax.Place

namespace ComponentLowering.Lowering

open ComponentLowering.Code ComponentLowering.Report ComponentLowering.Settings
open ComponentLowering.Syntax

/-- The class that a statement declares. -/
def class? : Stmt → Option ClassDef
  | .classDecl decl | .exportDecl _ (.classDecl decl) | .exportDefault _ (.classDecl decl) =>
    some decl
  | _ => none

/-- A statement that declares another class in the same way. -/
def withClass (new : ClassDef) : Stmt → Stmt
  | .classDecl _ => .classDecl new
  | .exportDecl span (.classDecl _) => .exportDecl span (.classDecl new)
  | .exportDefault span (.classDecl _) => .exportDefault span (.classDecl new)
  | other => other

/-- Whether a statement exports what it declares under its name. -/
def isNamedExport : Stmt → Bool
  | .exportDecl _ _ | .exportList _ => true
  | _ => false

/-- Whether a statement is the default export. -/
def isDefaultExport : Stmt → Bool
  | .exportDefault _ _ | .exportDefaultValue _ _ => true
  | _ => false

/-- A class with its name and everything in it that is written by the given class: members,
superclass, decorators and type parameters. -/
def fillClass (frame content : ClassDef) : ClassDef :=
  { frame with
    members := content.members
    superClass := content.superClass
    decorators := content.decorators
    typeParams := content.typeParams }

/-- Fills the class that is the value of the first variable. -/
def fillFirst (content : ClassDef) : List Declarator → Option (List Declarator)
  | d :: rest =>
    match d.value with
    | some (.classExpr frame) =>
      some ({ d with value := some (.classExpr (fillClass frame content)) } :: rest)
    | _ => none
  | [] => none

/-- Fills the class that is the value of the constant that a statement declares, and puts the
statement at a place. -/
def fillConstant (span : Span) (content : ClassDef) : Stmt → Option Stmt
  | .variableDecl _ declared kind items =>
    (fillFirst content items).map (.variableDecl span declared kind ·)
  | .exportDecl _ (.variableDecl inner declared kind items) =>
    (fillFirst content items).map fun items =>
      .exportDecl span (.variableDecl inner declared kind items)
  | _ => none

/-- Fills the class that a statement declares, and puts the statement at a place. -/
def fillDeclaration (span : Span) (content : ClassDef) : Stmt → Option Stmt
  | .classDecl frame => some (.classDecl { fillClass frame content with span })
  | _ => none

/-- The form that a lowered class statement takes. -/
inductive ClassShape where
  /-- A constant, exported or not. -/
  | constant (exported : Bool)
  /-- A declaration that is not exported. -/
  | declaration
  /-- The statement as it is. -/
  | unchanged
deriving DecidableEq, Repr, Inhabited

/-- The form that the options ask for. -/
def classShape (options : Options) (s : Stmt) : ClassShape :=
  let exported := isNamedExport s && options.componentExport == .lazy
  if isDefaultExport s then
    if options.componentExport == .customElement then .declaration else .unchanged
  else
    match options.convention with
    | .esm => .constant exported
    | .cjs => if isNamedExport s && !exported then .declaration else .unchanged

/-- The statement of a form, with an empty class. -/
def shapeText (className : String) : ClassShape → Option String
  | .constant exported =>
    some ((if exported then "export " else "") ++ "const " ++ className ++ " = class \x7b\x7d;")
  | .declaration => some ("class " ++ className ++ " \x7b\x7d")
  | .unchanged => none

/-- Gives the class of a statement the form that the options ask for.  The statement keeps its
place, and with it its comments. -/
def shapeClass (options : Options) (className : String) (s : Stmt) : Except Failure Stmt :=
  let shape := classShape options s
  match shapeText className shape with
  | none => .ok s
  | some text => do
    let frame ← statement text
    let filled := do
      let content ← class? s
      match shape with
      | .constant _ => fillConstant s.span content frame
      | _ => fillDeclaration s.span content frame
    match filled with
    | some new => return new
    | none => throw (.unbuildable text "no class to fill")

end ComponentLowering.Lowering
