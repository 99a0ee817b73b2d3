/-
# Bound and exported names

The names that a pattern binds and the names under which a statement offers something to other
modules.
-/
import ComponentLowering.Syntax.Tree

namespace ComponentLowering.Syntax

mutual

/-- The names that a pattern binds, with or without those of its rest elements. -/
def Pattern.boundNames (withRest : Bool) : Pattern → List String
  | .ident _ name => [name]
  | .object _ properties => patternsBoundNames withRest properties
  | .property _ _ value _ => value.boundNames withRest
  | .array _ elements => patternsBoundNames withRest elements
  | .hole _ => []
  | .withDefault _ target _ => target.boundNames withRest
  | .rest _ target => if withRest then target.boundNames withRest else []
  | .annotated target _ _ => target.boundNames withRest
  | .place _ => []

/-- The names that some patterns bind. -/
def patternsBoundNames (withRest : Bool) : List Pattern → List String
  | [] => []
  | p :: rest => p.boundNames withRest ++ patternsBoundNames withRest rest

end

/-- The names that a statement exports. -/
def Stmt.exportedNames : Stmt → List String
  | .exportDecl _ (.variableDecl _ _ _ items) =>
    items.flatMap fun d => d.target.boundNames true
  | .exportDecl _ (.function fn) => (fn.name.map (·.name)).toList
  | .exportDecl _ (.classDecl decl) => (decl.name.map (·.name)).toList
  | .exportDefault _ _ | .exportDefaultValue _ _ => ["default"]
  | .exportList exports => exports.specifiers.map (·.exposed.text)
  | .exportAll exports => (exports.alias?.map ModuleName.text).toList
  | _ => []

/-- Whether no name is exported twice. -/
def exportsOnce (body : List Stmt) : Bool :=
  let names := body.flatMap Stmt.exportedNames
  names.eraseDups == names

end ComponentLowering.Syntax
