/-
# Detached syntax

Syntax that the compiler makes up is read from a text of its own, so its positions mean nothing in
the module that it is put into.  Detaching a tree replaces every span in it by the empty span at
offset zero; nothing else of the tree changes.
-/
import ComponentLowering.Syntax.Tree

namespace ComponentLowering.Syntax

/-- An identifier without its place. -/
def Ident.detach (name : Ident) : Ident := { name with span := .detached }

/-- A string literal without its place. -/
def StringLiteral.detach (literal : StringLiteral) : StringLiteral :=
  { literal with span := .detached }

/-- A piece of a template without its place. -/
def TemplateChunk.detach (chunk : TemplateChunk) : TemplateChunk :=
  { chunk with span := .detached }

/-- A directive without its place. -/
def Directive.detach (directive : Directive) : Directive := { directive with span := .detached }

/-- The name of an import or export without its place. -/
def ModuleName.detach : ModuleName → ModuleName
  | .ident name => .ident name.detach
  | .string literal => .string literal.detach

/-- An import specifier without its places. -/
def ImportSpecifier.detach : ImportSpecifier → ImportSpecifier
  | .default _ b => .default .detached b.detach
  | .allNames _ b => .allNames .detached b.detach
  | .named _ i b t => .named .detached i.detach b.detach t

/-- An import attribute without its places. -/
def ImportAttribute.detach (a : ImportAttribute) : ImportAttribute :=
  ⟨.detached, a.key.detach, a.value.detach⟩

/-- An import declaration without its places. -/
def ImportDecl.detach (d : ImportDecl) : ImportDecl :=
  { d with
    span := .detached
    specifiers := d.specifiers.map (·.map ImportSpecifier.detach)
    source := d.source.detach
    attributes := d.attributes.map (·.map ImportAttribute.detach) }

/-- An export specifier without its places. -/
def ExportSpecifier.detach (s : ExportSpecifier) : ExportSpecifier :=
  { s with span := .detached, exposed := s.exposed.detach, localName := s.localName.detach }

/-- An export list without its places. -/
def ExportList.detach (e : ExportList) : ExportList :=
  { e with
    span := .detached
    specifiers := e.specifiers.map ExportSpecifier.detach
    source := e.source.map StringLiteral.detach }

/-- A re-export without its places. -/
def ExportAll.detach (e : ExportAll) : ExportAll :=
  { e with
    span := .detached
    alias? := e.alias?.map ModuleName.detach
    source := e.source.detach
    attributes := e.attributes.map (·.map ImportAttribute.detach) }

mutual

/-- A type without its places. -/
def TypeNode.detach : TypeNode → TypeNode
  | .keyword _ name => .keyword .detached name
  | .reference _ path args => .reference .detached path (detachTypes args)
  | .query _ target args => .query .detached target.detach (detachTypes args)
  | .importType _ argument options path args =>
    .importType .detached argument.detach (detachExpr? options) path (detachTypes args)
  | .requireModule _ source => .requireModule .detached source.detach
  | .string _ value => .string .detached value
  | .number _ negative raw => .number .detached negative raw
  | .bigint _ negative digits => .bigint .detached negative digits
  | .template _ chunks types =>
    .template .detached (chunks.map TemplateChunk.detach) (detachTypes types)
  | .array _ item => .array .detached item.detach
  | .tuple _ items => .tuple .detached (detachTypes items)
  | .optional _ item => .optional .detached item.detach
  | .rest _ item => .rest .detached item.detach
  | .labeled _ label optional item => .labeled .detached label optional item.detach
  | .marked _ mark behind item => .marked .detached mark behind item.detach
  | .union _ items => .union .detached (detachTypes items)
  | .intersection _ items => .intersection .detached (detachTypes items)
  | .function _ isNew isAbstract typeParams params result =>
    .function .detached isNew isAbstract (detachTypes typeParams) (detachParams params)
      result.detach
  | .choice _ check bound yes no =>
    .choice .detached check.detach bound.detach yes.detach no.detach
  | .infer _ param => .infer .detached param.detach
  | .operator _ word operand => .operator .detached word operand.detach
  | .indexed _ object key => .indexed .detached object.detach key.detach
  | .mapped _ readonlyMod name source rename optionalMod type =>
    .mapped .detached readonlyMod name source.detach (detachType? rename) optionalMod
      (detachType? type)
  | .object _ members => .object .detached (detachTypes members)
  | .paren _ inner => .paren .detached inner.detach
  | .predicate _ asserts subject type => .predicate .detached asserts subject (detachType? type)
  | .propertySignature _ isReadonly key optional type =>
    .propertySignature .detached isReadonly key.detach optional (detachType? type)
  | .methodSignature _ kind key optional typeParams params result =>
    .methodSignature .detached kind key.detach optional (detachTypes typeParams)
      (detachParams params) (detachType? result)
  | .callSignature _ isNew typeParams params result =>
    .callSignature .detached isNew (detachTypes typeParams) (detachParams params)
      (detachType? result)
  | .indexSignature _ isReadonly name key result =>
    .indexSignature .detached isReadonly name.detach key.detach result.detach
  | .parameter _ modifiers name bound default =>
    .parameter .detached modifiers name (detachType? bound) (detachType? default)

/-- Types without their places. -/
def detachTypes : List TypeNode → List TypeNode
  | [] => []
  | t :: rest => t.detach :: detachTypes rest

/-- A type that may be missing, without its places. -/
def detachType? : Option TypeNode → Option TypeNode
  | none => none
  | some t => some t.detach

/-- An expression without its places. -/
def Expr.detach : Expr → Expr
  | .ident _ name => .ident .detached name
  | .this _ => .this .detached
  | .super _ => .super .detached
  | .null _ => .null .detached
  | .bool _ value => .bool .detached value
  | .number _ value => .number .detached value
  | .bigint _ digits => .bigint .detached digits
  | .regex _ pattern flags => .regex .detached pattern flags
  | .string _ value => .string .detached value
  | .template _ chunks values =>
    .template .detached (chunks.map TemplateChunk.detach) (detachExprs values)
  | .tagged _ tag typeArgs chunks values =>
    .tagged .detached tag.detach (detachTypes typeArgs) (chunks.map TemplateChunk.detach)
      (detachExprs values)
  | .array _ elements => .array .detached (detachExprs elements)
  | .object _ members => .object .detached (detachExprs members)
  | .property _ key value shorthand => .property .detached key.detach value.detach shorthand
  | .objectMethod _ kind key fn => .objectMethod .detached kind key.detach fn.detach
  | .spread _ value => .spread .detached value.detach
  | .hole _ => .hole .detached
  | .function fn => .function fn.detach
  | .arrow fn => .arrow fn.detach
  | .classExpr decl => .classExpr decl.detach
  | .unary _ op operand => .unary .detached op operand.detach
  | .update _ op before operand => .update .detached op before operand.detach
  | .binary _ op left right => .binary .detached op left.detach right.detach
  | .privateIn _ name right => .privateIn .detached name right.detach
  | .assign _ op target value => .assign .detached op target.detach value.detach
  | .choice _ test yes no => .choice .detached test.detach yes.detach no.detach
  | .sequence _ items => .sequence .detached (detachExprs items)
  | .call _ callee typeArgs args optional isPure =>
    .call .detached callee.detach (detachTypes typeArgs) (detachExprs args) optional isPure
  | .construct _ callee typeArgs args isPure =>
    .construct .detached callee.detach (detachTypes typeArgs) (detachExprs args) isPure
  | .member _ object property optional =>
    .member .detached object.detach property.detach optional
  | .privateMember _ object name optional =>
    .privateMember .detached object.detach name optional
  | .index _ object key optional => .index .detached object.detach key.detach optional
  | .chain _ inner => .chain .detached inner.detach
  | .paren _ inner => .paren .detached inner.detach
  | .await _ operand => .await .detached operand.detach
  | .yield _ delegate operand => .yield .detached delegate (detachExpr? operand)
  | .importCall _ phase source options =>
    .importCall .detached phase source.detach (detachExpr? options)
  | .metaProperty _ object property => .metaProperty .detached object property
  | .asType _ operand type => .asType .detached operand.detach type.detach
  | .satisfies _ operand type => .satisfies .detached operand.detach type.detach
  | .typeAssertion _ type operand => .typeAssertion .detached type.detach operand.detach
  | .nonNull _ operand => .nonNull .detached operand.detach
  | .instantiate _ operand typeArgs =>
    .instantiate .detached operand.detach (detachTypes typeArgs)
  | .element _ tag typeArgs attributes children selfClosing =>
    .element .detached tag (detachTypes typeArgs) (detachExprs attributes)
      (detachExprs children) selfClosing
  | .fragment _ children => .fragment .detached (detachExprs children)
  | .attribute _ name value => .attribute .detached name (detachExpr? value)
  | .attributeText _ raw => .attributeText .detached raw
  | .markupText _ raw => .markupText .detached raw
  | .container _ inner => .container .detached (detachExpr? inner)

/-- Expressions without their places. -/
def detachExprs : List Expr → List Expr
  | [] => []
  | e :: rest => e.detach :: detachExprs rest

/-- An expression that may be missing, without its places. -/
def detachExpr? : Option Expr → Option Expr
  | none => none
  | some e => some e.detach

/-- A key without its places. -/
def Key.detach : Key → Key
  | .name _ name => .name .detached name
  | .string _ value => .string .detached value
  | .number _ value raw => .number .detached value raw
  | .bigint _ digits => .bigint .detached digits
  | .privateName _ name => .privateName .detached name
  | .computed inner => .computed inner.detach

/-- A pattern without its places. -/
def Pattern.detach : Pattern → Pattern
  | .ident _ name => .ident .detached name
  | .object _ properties => .object .detached (detachPatterns properties)
  | .property _ key value shorthand => .property .detached key.detach value.detach shorthand
  | .array _ elements => .array .detached (detachPatterns elements)
  | .hole _ => .hole .detached
  | .withDefault _ target value => .withDefault .detached target.detach value.detach
  | .rest _ target => .rest .detached target.detach
  | .annotated target optional type => .annotated target.detach optional (detachType? type)
  | .place target => .place target.detach

/-- Patterns without their places. -/
def detachPatterns : List Pattern → List Pattern
  | [] => []
  | p :: rest => p.detach :: detachPatterns rest

/-- A parameter without its places. -/
def Param.detach : Param → Param
  | ⟨_, decorators, access, overrides, isReadonly, target, optional, type⟩ =>
    ⟨.detached, detachDecorators decorators, access, overrides, isReadonly, target.detach,
      optional, detachType? type⟩

/-- Parameters without their places. -/
def detachParams : List Param → List Param
  | [] => []
  | p :: rest => p.detach :: detachParams rest

/-- A parameter that may be missing, without its places. -/
def detachParam? : Option Param → Option Param
  | none => none
  | some p => some p.detach

/-- A function without its places. -/
def Func.detach : Func → Func
  | ⟨_, name, declared, isAsync, isGenerator, isPure, parenthesized, typeParams, receiver, params,
      returnType, body⟩ =>
    ⟨.detached, name.map Ident.detach, declared, isAsync, isGenerator, isPure, parenthesized,
      detachTypes typeParams, detachParams receiver, detachParams params,
      detachType? returnType, body.detach⟩

/-- The body of a function or of a namespace without its places. -/
def Body.detach : Body → Body
  | .missing => .missing
  | .value result => .value result.detach
  | .block _ directives statements =>
    .block .detached (directives.map Directive.detach) (detachStmts statements)

/-- A decorator without its places. -/
def Decorator.detach : Decorator → Decorator
  | ⟨_, expr⟩ => ⟨.detached, expr.detach⟩

/-- Decorators without their places. -/
def detachDecorators : List Decorator → List Decorator
  | [] => []
  | d :: rest => d.detach :: detachDecorators rest

/-- A class without its places. -/
def ClassDef.detach : ClassDef → ClassDef
  | ⟨_, decorators, declared, isAbstract, name, typeParams, superClass, superTypeArgs,
      interfaces, members, named⟩ =>
    ⟨.detached, detachDecorators decorators, declared, isAbstract, name.map Ident.detach,
      detachTypes typeParams, detachExpr? superClass, detachTypes superTypeArgs,
      detachTypes interfaces, detachMembers members, by
        cases name with
        | none => rfl
        | some n => exact named⟩

/-- A method without its places. -/
def Method.detach : Method → Method
  | ⟨_, decorators, kind, key, isStatic, isAbstract, access, optional, fn⟩ =>
    ⟨.detached, detachDecorators decorators, kind, key.detach, isStatic, isAbstract, access,
      optional, fn.detach⟩

/-- A field without its places. -/
def Field.detach : Field → Field
  | ⟨_, decorators, key, isStatic, isAbstract, isReadonly, declared, overrides, access, optional,
      type, value⟩ =>
    ⟨.detached, detachDecorators decorators, key.detach, isStatic, isAbstract, isReadonly,
      declared, overrides, access, optional, detachType? type, detachExpr? value⟩

/-- A class member without its places. -/
def Member.detach : Member → Member
  | .method method => .method method.detach
  | .field field => .field field.detach
  | .accessor field => .accessor field.detach
  | .staticBlock _ body => .staticBlock .detached (detachStmts body)
  | .indexSignature _ isReadonly name key result =>
    .indexSignature .detached isReadonly name.detach key.detach result.detach

/-- Class members without their places. -/
def detachMembers : List Member → List Member
  | [] => []
  | m :: rest => m.detach :: detachMembers rest

/-- A statement without its places. -/
def Stmt.detach : Stmt → Stmt
  | .expression _ value => .expression .detached value.detach
  | .block _ body => .block .detached (detachStmts body)
  | .empty _ => .empty .detached
  | .branch _ test yes no => .branch .detached test.detach yes.detach (detachStmt? no)
  | .forLoop _ init test update body =>
    .forLoop .detached (detachStmt? init) (detachExpr? test) (detachExpr? update) body.detach
  | .forIn _ left right body => .forIn .detached left.detach right.detach body.detach
  | .forOf _ isAwait left right body =>
    .forOf .detached isAwait left.detach right.detach body.detach
  | .assignee target => .assignee target.detach
  | .whileLoop _ test body => .whileLoop .detached test.detach body.detach
  | .doWhile _ body test => .doWhile .detached body.detach test.detach
  | .continueTo _ label => .continueTo .detached (label.map Ident.detach)
  | .breakTo _ label => .breakTo .detached (label.map Ident.detach)
  | .returnValue _ value => .returnValue .detached (detachExpr? value)
  | .withObject _ object body => .withObject .detached object.detach body.detach
  | .switchOn _ value cases => .switchOn .detached value.detach (detachStmts cases)
  | .switchCase _ test body => .switchCase .detached (detachExpr? test) (detachStmts body)
  | .labeled _ label body => .labeled .detached label.detach body.detach
  | .throwValue _ value => .throwValue .detached value.detach
  | .tryCatch _ block handler finalizer =>
    .tryCatch .detached block.detach (detachStmt? handler) (detachStmt? finalizer)
  | .catchClause _ param body => .catchClause .detached (detachParam? param) body.detach
  | .debugger _ => .debugger .detached
  | .variableDecl _ declared kind items => .variableDecl .detached declared kind (detachItems items)
  | .function fn => .function fn.detach
  | .classDecl decl => .classDecl decl.detach
  | .importDecl decl => .importDecl decl.detach
  | .exportDecl _ decl => .exportDecl .detached decl.detach
  | .exportDefault _ decl => .exportDefault .detached decl.detach
  | .exportDefaultValue _ value => .exportDefaultValue .detached value.detach
  | .exportList exports => .exportList exports.detach
  | .exportAll exports => .exportAll exports.detach
  | .exportAssign _ value => .exportAssign .detached value.detach
  | .exportGlobal _ name => .exportGlobal .detached name.detach
  | .importAlias _ name target => .importAlias .detached name.detach target.detach
  | .typeAlias _ declared name typeParams type =>
    .typeAlias .detached declared name.detach (detachTypes typeParams) type.detach
  | .interface _ name typeParams parents members =>
    .interface .detached name.detach (detachTypes typeParams) (detachTypes parents)
      (detachTypes members)
  | .enumeration _ declared isConst name members =>
    .enumeration .detached declared isConst name.detach (detachStmts members)
  | .enumMember _ key value => .enumMember .detached key.detach (detachExpr? value)
  | .moduleBlock _ declared kind name external body =>
    .moduleBlock .detached declared kind name (external.map StringLiteral.detach) body.detach

/-- Statements without their places. -/
def detachStmts : List Stmt → List Stmt
  | [] => []
  | s :: rest => s.detach :: detachStmts rest

/-- A statement that may be missing, without its places. -/
def detachStmt? : Option Stmt → Option Stmt
  | none => none
  | some s => some s.detach

/-- A variable without its places. -/
def Declarator.detach : Declarator → Declarator
  | ⟨_, target, definite, optional, type, value⟩ =>
    ⟨.detached, target.detach, definite, optional, detachType? type, detachExpr? value⟩

/-- Variables without their places. -/
def detachItems : List Declarator → List Declarator
  | [] => []
  | d :: rest => d.detach :: detachItems rest

end

end ComponentLowering.Syntax
