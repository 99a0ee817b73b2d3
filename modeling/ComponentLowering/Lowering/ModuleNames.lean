/-
# Names of a module

The names that the statements of a module bind, in the order of the text.  Those of rest elements
are not reported.
-/
import ComponentLowering.Syntax.Exported

namespace ComponentLowering.Lowering

open ComponentLowering.Syntax

/-- The names that a declaration binds. -/
def declarationNames : Stmt → List String
  | .variableDecl _ _ _ items => items.flatMap fun d => d.target.boundNames false
  | .function fn => (fn.name.map (·.name)).toList
  | .classDecl decl => (decl.name.map (·.name)).toList
  | .importAlias _ name _ => [name.name]
  | .typeAlias _ _ name _ _ => [name.name]
  | .interface _ name _ _ _ => [name.name]
  | .enumeration _ _ _ name _ => [name.name]
  | .moduleBlock _ _ kind name external _ =>
    match kind, external with
    | .globalBlock, _ => []
    | _, some _ => []
    | _, none => name.head?.toList
  | _ => []

/-- The names that a statement binds in its module. -/
def statementNames : Stmt → List String
  | .importDecl decl => (decl.specifiers.getD []).map fun s => s.binding.name
  | .exportDecl _ decl => declarationNames decl
  | .exportDefault _ (.classDecl decl) => (decl.name.map (·.name)).toList
  | .exportDefault _ (.function fn) => (fn.name.map (·.name)).toList
  | .exportDefault _ _ => []
  | s => declarationNames s

/-- The names that statements bind. -/
def moduleNames (body : List Stmt) : List String := body.flatMap statementNames

end ComponentLowering.Lowering
