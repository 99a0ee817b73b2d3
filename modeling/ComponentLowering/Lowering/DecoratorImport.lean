/-
# Imports of decorators

The decorators that lowering removes are imported from the core module.  An import of one is
dropped unless some class or member still carries it.
-/
import ComponentLowering.Component.Annotation
import ComponentLowering.Lowering.ClassStatement

namespace ComponentLowering.Lowering

open ComponentLowering.Component ComponentLowering.Settings ComponentLowering.Syntax

/-- Whether a statement is an import declaration. -/
def isImport : Stmt → Bool
  | .importDecl _ => true
  | _ => false

/-- The position behind the last import. -/
def afterLastImport : List Stmt → Nat
  | [] => 0
  | s :: rest =>
    match afterLastImport rest with
    | 0 => if isImport s then 1 else 0
    | n + 1 => n + 2

/-- The decorators of a member. -/
def memberDecorators : Member → List Decorator
  | .field f | .accessor f => f.decorators
  | .method m => m.decorators
  | .staticBlock _ _ | .indexSignature _ _ _ _ _ => []

/-- The names of the decorators that a class and its members carry. -/
def classDecoratorNames (decl : ClassDef) : List String :=
  (decl.decorators ++ decl.members.flatMap memberDecorators).filterMap decoratorName

/-- The names of the decorators of all classes that statements declare. -/
def decoratorsInUse (body : List Stmt) : List String :=
  (body.filterMap class?).flatMap classDecoratorNames

/-- Whether an import specifier is for a lowered decorator that is used no more. -/
def isStale (inUse : List String) : ImportSpecifier → Bool
  | .named _ imported binding _ =>
    loweredDecorators.contains imported.text && !inUse.contains binding.name
  | .default _ _ | .allNames _ _ => false

/-- What is left of an import declaration, and the number of its specifiers that were dropped.  A
declaration that loses all its specifiers is dropped too. -/
def pruneImport (corePath : String) (inUse : List String) (d : ImportDecl) :
    Option ImportDecl × Nat :=
  let path := d.source.value.text
  if path != corePath && path != defaultCorePath then (some d, 0)
  else
    match d.specifiers with
    | none | some [] => (some d, 0)
    | some specifiers =>
      let kept := specifiers.filter fun s => !isStale inUse s
      let removed := specifiers.length - kept.length
      if kept.isEmpty then (none, removed) else (some { d with specifiers := some kept }, removed)

/-- What is left of a statement, and the number of import specifiers that were dropped. -/
def pruneStatement (corePath : String) (inUse : List String) : Stmt → List Stmt × Nat
  | .importDecl d =>
    let (kept, removed) := pruneImport corePath inUse d
    (kept.toList.map .importDecl, removed)
  | s => ([s], 0)

/-- What is left of statements when the stale imports of decorators are dropped, and how many import
specifiers were dropped. -/
def pruneImports (corePath : String) (body : List Stmt) : List Stmt × Nat :=
  let pruned := body.map (pruneStatement corePath (decoratorsInUse body))
  (pruned.flatMap (·.1), pruned.foldr (fun p n => p.2 + n) 0)

end ComponentLowering.Lowering
