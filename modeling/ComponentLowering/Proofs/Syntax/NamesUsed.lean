/-
# Names in use

The names that syntax refers to: in its expressions and types, in the targets of its assignments, in
the tags of its markup and in the lists of what it exports.  A name that syntax only introduces, or
that stands for a key, a label or a part of a path, is not one of them.  Scopes are not looked at, so
a name counts whatever it is bound by.
-/
import ComponentLowering.Syntax.Tree

namespace ComponentLowering.Syntax

/-- The name that the tag of an element refers to.  Tags with a colon or a hyphen refer to nothing,
and neither do tags in lower case without a dot. -/
def tagUses (tag : String) : List String :=
  let cs := tag.toList
  if cs.contains ':' || !cs.contains '.' && (cs.contains '-' || cs.head?.all Char.isLower) then []
  else [String.ofList (cs.takeWhile (· != '.'))]

/-- The names in an export list are names of the module unless they come from another one. -/
def ExportList.uses (e : ExportList) : List String :=
  match e.source with
  | some _ => []
  | none => e.specifiers.filterMap fun s =>
      match s.localName with
      | .ident name => some name.name
      | .string _ => none

mutual

/-- The names that a type refers to. -/
def TypeNode.uses : TypeNode → List String
  | .keyword _ _ | .requireModule _ _ | .string _ _ | .number _ _ _ | .bigint _ _ _ => []
  | .reference _ path args => path.head?.toList ++ usesOfTypes args
  | .query _ target args => target.uses ++ usesOfTypes args
  | .importType _ argument options _ args =>
    argument.uses ++ usesOfExpr? options ++ usesOfTypes args
  | .template _ _ types => usesOfTypes types
  | .array _ item | .optional _ item | .rest _ item | .labeled _ _ _ item | .marked _ _ _ item
  | .infer _ item | .operator _ _ item | .paren _ item => item.uses
  | .tuple _ items | .union _ items | .intersection _ items | .object _ items => usesOfTypes items
  | .function _ _ _ typeParams params result =>
    usesOfTypes typeParams ++ usesOfParams params ++ result.uses
  | .choice _ check bound yes no => check.uses ++ bound.uses ++ yes.uses ++ no.uses
  | .indexed _ object key => object.uses ++ key.uses
  | .mapped _ _ _ source rename _ type => source.uses ++ usesOfType? rename ++ usesOfType? type
  | .predicate _ _ _ type => usesOfType? type
  | .propertySignature _ _ key _ type => key.uses ++ usesOfType? type
  | .methodSignature _ _ key _ typeParams params result =>
    key.uses ++ usesOfTypes typeParams ++ usesOfParams params ++ usesOfType? result
  | .callSignature _ _ typeParams params result =>
    usesOfTypes typeParams ++ usesOfParams params ++ usesOfType? result
  | .indexSignature _ _ _ key result => key.uses ++ result.uses
  | .parameter _ _ _ bound default => usesOfType? bound ++ usesOfType? default

/-- The names that types refer to. -/
def usesOfTypes : List TypeNode → List String
  | [] => []
  | t :: rest => t.uses ++ usesOfTypes rest

/-- The names that a type refers to that may be missing. -/
def usesOfType? : Option TypeNode → List String
  | none => []
  | some t => t.uses

/-- The names that an expression refers to. -/
def Expr.uses : Expr → List String
  | .ident _ name => [name]
  | .this _ | .super _ | .null _ | .bool _ _ | .number _ _ | .bigint _ _ | .regex _ _ _
  | .string _ _ | .hole _ | .metaProperty _ _ _ | .attributeText _ _ | .markupText _ _ => []
  | .template _ _ values => usesOfExprs values
  | .tagged _ tag typeArgs _ values => tag.uses ++ usesOfTypes typeArgs ++ usesOfExprs values
  | .array _ items | .object _ items | .sequence _ items | .fragment _ items => usesOfExprs items
  | .property _ key value _ => key.uses ++ value.uses
  | .objectMethod _ _ key fn => key.uses ++ fn.uses
  | .function fn | .arrow fn => fn.uses
  | .classExpr decl => decl.uses
  | .spread _ e | .unary _ _ e | .update _ _ _ e | .privateIn _ _ e | .member _ e _ _
  | .privateMember _ e _ _ | .chain _ e | .paren _ e | .await _ e | .nonNull _ e => e.uses
  | .binary _ _ left right => left.uses ++ right.uses
  | .assign _ _ target value => target.uses true ++ value.uses
  | .choice _ test yes no => test.uses ++ yes.uses ++ no.uses
  | .call _ callee typeArgs args _ _ | .construct _ callee typeArgs args _ =>
    callee.uses ++ usesOfTypes typeArgs ++ usesOfExprs args
  | .index _ object key _ => object.uses ++ key.uses
  | .yield _ _ e | .attribute _ _ e | .container _ e => usesOfExpr? e
  | .importCall _ _ source options => source.uses ++ usesOfExpr? options
  | .asType _ e type | .satisfies _ e type | .typeAssertion _ type e => e.uses ++ type.uses
  | .instantiate _ e typeArgs => e.uses ++ usesOfTypes typeArgs
  | .element _ tag typeArgs attributes children _ =>
    tagUses tag ++ usesOfTypes typeArgs ++ usesOfExprs attributes ++ usesOfExprs children

/-- The names that expressions refer to. -/
def usesOfExprs : List Expr → List String
  | [] => []
  | e :: rest => e.uses ++ usesOfExprs rest

/-- The names that an expression refers to that may be missing. -/
def usesOfExpr? : Option Expr → List String
  | none => []
  | some e => e.uses

/-- The names that a key refers to. -/
def Key.uses : Key → List String
  | .name _ _ | .string _ _ | .number _ _ _ | .bigint _ _ | .privateName _ _ => []
  | .computed inner => inner.uses

/-- The names that a pattern refers to.  Those that it consists of count if they are assigned to
rather than introduced. -/
def Pattern.uses (assigned : Bool) : Pattern → List String
  | .ident _ name => if assigned then [name] else []
  | .object _ properties => usesOfPatterns assigned properties
  | .property _ key value _ => key.uses ++ value.uses assigned
  | .array _ elements => usesOfPatterns assigned elements
  | .hole _ => []
  | .withDefault _ target value => target.uses assigned ++ value.uses
  | .rest _ target => target.uses assigned
  | .annotated target _ type => target.uses assigned ++ usesOfType? type
  | .place target => target.uses

/-- The names that patterns refer to. -/
def usesOfPatterns (assigned : Bool) : List Pattern → List String
  | [] => []
  | p :: rest => p.uses assigned ++ usesOfPatterns assigned rest

/-- The names that a parameter refers to. -/
def Param.uses : Param → List String
  | ⟨_, decorators, _, _, _, target, _, type⟩ =>
    usesOfDecorators decorators ++ target.uses false ++ usesOfType? type

/-- The names that parameters refer to. -/
def usesOfParams : List Param → List String
  | [] => []
  | p :: rest => p.uses ++ usesOfParams rest

/-- The names that a parameter refers to that may be missing. -/
def usesOfParam? : Option Param → List String
  | none => []
  | some p => p.uses

/-- The names that a function refers to. -/
def Func.uses : Func → List String
  | ⟨_, _, _, _, _, _, _, typeParams, receiver, params, returnType, body⟩ =>
    usesOfTypes typeParams ++ usesOfParams receiver ++ usesOfParams params
      ++ usesOfType? returnType ++ body.uses

/-- The names that the body of a function or of a namespace refers to. -/
def Body.uses : Body → List String
  | .missing => []
  | .value result => result.uses
  | .block _ _ statements => usesOfStmts statements

/-- The names that a decorator refers to. -/
def Decorator.uses : Decorator → List String
  | ⟨_, expr⟩ => expr.uses

/-- The names that decorators refer to. -/
def usesOfDecorators : List Decorator → List String
  | [] => []
  | d :: rest => d.uses ++ usesOfDecorators rest

/-- The names that a class refers to. -/
def ClassDef.uses : ClassDef → List String
  | ⟨_, decorators, _, _, _, typeParams, superClass, superTypeArgs, interfaces, members, _⟩ =>
    usesOfDecorators decorators ++ (usesOfTypes typeParams ++ usesOfExpr? superClass
      ++ usesOfTypes superTypeArgs ++ usesOfTypes interfaces) ++ usesOfMembers members

/-- The names that a method refers to. -/
def Method.uses : Method → List String
  | ⟨_, decorators, _, key, _, _, _, _, fn⟩ => usesOfDecorators decorators ++ (key.uses ++ fn.uses)

/-- The names that a field refers to. -/
def Field.uses : Field → List String
  | ⟨_, decorators, key, _, _, _, _, _, _, _, type, value⟩ =>
    usesOfDecorators decorators ++ (key.uses ++ usesOfType? type ++ usesOfExpr? value)

/-- The names that a class member refers to. -/
def Member.uses : Member → List String
  | .method method => method.uses
  | .field field | .accessor field => field.uses
  | .staticBlock _ body => usesOfStmts body
  | .indexSignature _ _ _ key result => key.uses ++ result.uses

/-- The names that class members refer to. -/
def usesOfMembers : List Member → List String
  | [] => []
  | m :: rest => m.uses ++ usesOfMembers rest

/-- The names that a statement refers to. -/
def Stmt.uses : Stmt → List String
  | .empty _ | .continueTo _ _ | .breakTo _ _ | .debugger _ | .importDecl _ | .exportAll _
  | .exportGlobal _ _ => []
  | .expression _ value | .throwValue _ value | .exportDefaultValue _ value
  | .exportAssign _ value => value.uses
  | .block _ body => usesOfStmts body
  | .branch _ test yes no => test.uses ++ yes.uses ++ usesOfStmt? no
  | .forLoop _ init test update body =>
    usesOfStmt? init ++ usesOfExpr? test ++ usesOfExpr? update ++ body.uses
  | .forIn _ left right body | .forOf _ _ left right body =>
    left.uses ++ right.uses ++ body.uses
  | .assignee target => target.uses true
  | .whileLoop _ test body | .doWhile _ body test | .withObject _ test body =>
    test.uses ++ body.uses
  | .returnValue _ value => usesOfExpr? value
  | .switchOn _ value cases => value.uses ++ usesOfStmts cases
  | .switchCase _ test body => usesOfExpr? test ++ usesOfStmts body
  | .labeled _ _ body => body.uses
  | .tryCatch _ block handler finalizer =>
    block.uses ++ usesOfStmt? handler ++ usesOfStmt? finalizer
  | .catchClause _ param body => usesOfParam? param ++ body.uses
  | .variableDecl _ _ _ items => usesOfItems items
  | .function fn => fn.uses
  | .classDecl decl => decl.uses
  | .exportDecl _ decl | .exportDefault _ decl => decl.uses
  | .exportList exports => exports.uses
  | .importAlias _ _ target => target.uses
  | .typeAlias _ _ _ typeParams type => usesOfTypes typeParams ++ type.uses
  | .interface _ _ typeParams parents members =>
    usesOfTypes typeParams ++ usesOfTypes parents ++ usesOfTypes members
  | .enumeration _ _ _ _ members => usesOfStmts members
  | .enumMember _ key value => key.uses ++ usesOfExpr? value
  | .moduleBlock _ _ _ _ _ body => body.uses

/-- The names that statements refer to. -/
def usesOfStmts : List Stmt → List String
  | [] => []
  | s :: rest => s.uses ++ usesOfStmts rest

/-- The names that a statement refers to that may be missing. -/
def usesOfStmt? : Option Stmt → List String
  | none => []
  | some s => s.uses

/-- The names that a variable refers to. -/
def Declarator.uses : Declarator → List String
  | ⟨_, target, _, _, type, value⟩ => target.uses false ++ usesOfType? type ++ usesOfExpr? value

/-- The names that variables refer to. -/
def usesOfItems : List Declarator → List String
  | [] => []
  | d :: rest => d.uses ++ usesOfItems rest

end

theorem usesOfStmts_eq (body : List Stmt) : usesOfStmts body = body.flatMap Stmt.uses := by
  induction body with
  | nil => unfold usesOfStmts; rfl
  | cons s rest ih =>
      unfold usesOfStmts
      rw [ih, List.flatMap_cons]

theorem usesOfDecorators_eq (decorators : List Decorator) :
    usesOfDecorators decorators = decorators.flatMap Decorator.uses := by
  induction decorators with
  | nil => unfold usesOfDecorators; rfl
  | cons d rest ih =>
      unfold usesOfDecorators
      rw [ih, List.flatMap_cons]

theorem usesOfMembers_eq (members : List Member) :
    usesOfMembers members = members.flatMap Member.uses := by
  induction members with
  | nil => unfold usesOfMembers; rfl
  | cons m rest ih =>
      unfold usesOfMembers
      rw [ih, List.flatMap_cons]

end ComponentLowering.Syntax
