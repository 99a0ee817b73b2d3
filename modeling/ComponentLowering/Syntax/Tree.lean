/-
# Syntax trees

The syntax of a module: statements, declarations, expressions, types, binding patterns and markup
elements, each with the span of the text it was read from.  Parentheses around an expression or a
type are nodes of their own.
-/
import ComponentLowering.Syntax.Literal
import ComponentLowering.Syntax.Name

namespace ComponentLowering.Syntax

open ComponentLowering.Text ComponentLowering.Number

/-- Operators in front of an operand. -/
inductive UnaryOp where
  | negate | plus | not | complement | typeOf | void | delete
deriving DecidableEq, Repr, Inhabited

/-- Operators that change a variable by one. -/
inductive UpdateOp where
  | increment | decrement
deriving DecidableEq, Repr, Inhabited

/-- Operators between two operands. -/
inductive BinaryOp where
  | coalesce | or | and
  | bitOr | bitXor | bitAnd
  | equal | notEqual | strictEqual | strictNotEqual
  | less | lessEqual | greater | greaterEqual | instanceOf | isIn
  | shiftLeft | shiftRight | shiftRightZero
  | add | subtract | multiply | divide | remainder | power
deriving DecidableEq, Repr, Inhabited

/-- Assignment, plain or combined with a binary operator. -/
inductive AssignOp where
  | plain
  | combined (op : BinaryOp)
deriving DecidableEq, Repr, Inhabited

/-- Keywords that introduce variables. -/
inductive VariableKind where
  | var | let | const | using | awaitUsing
deriving DecidableEq, Repr, Inhabited

/-- Visibility written in front of a member or a parameter. -/
inductive Access where
  | openAccess | guarded | closed
deriving DecidableEq, Repr, Inhabited

/-- What a method of a class or an object is. -/
inductive MethodKind where
  | constructor | method | getter | setter
deriving DecidableEq, Repr, Inhabited

/-- How a mapped type changes a modifier. -/
inductive MappedModifier where
  | absent | present | added | removed
deriving DecidableEq, Repr, Inhabited

/-- The marks on a type that stand for a missing or a certain value. -/
inductive TypeMark where
  | nullable | certain
deriving DecidableEq, Repr, Inhabited

/-- A string statement in the prologue of a body, as raw text without its quotes. -/
structure Directive where
  span : Span
  raw : String
deriving DecidableEq, Repr, Inhabited

/-- The name of an import or export: an identifier or a string. -/
inductive ModuleName where
  | ident (name : Ident)
  | string (literal : StringLiteral)
deriving DecidableEq, Repr, Inhabited

namespace ModuleName

/-- The text of a module name. -/
def text : ModuleName → String
  | .ident name => name.name
  | .string literal => literal.value.text

end ModuleName

/-- One binding of an import declaration. -/
inductive ImportSpecifier where
  | default (span : Span) (binding : Ident)
  | allNames (span : Span) (binding : Ident)
  | named (span : Span) (imported : ModuleName) (binding : Ident) (typeOnly : Bool)
deriving DecidableEq, Repr, Inhabited

namespace ImportSpecifier

/-- The name that a specifier binds in the module. -/
def binding : ImportSpecifier → Ident
  | .default _ b | .allNames _ b | .named _ _ b _ => b

/-- Whether a specifier imports only a type. -/
def isTypeOnly : ImportSpecifier → Bool
  | .named _ _ _ typeOnly => typeOnly
  | _ => false

end ImportSpecifier

/-- One `key: "value"` pair of an import or export. -/
structure ImportAttribute where
  span : Span
  key : ModuleName
  value : StringLiteral
deriving DecidableEq, Repr, Inhabited

/-- An import declaration.  It has no specifier list when only the module is run. -/
structure ImportDecl where
  span : Span
  typeOnly : Bool
  phase : Option String
  specifiers : Option (List ImportSpecifier)
  source : StringLiteral
  attributeKeyword : String
  attributes : Option (List ImportAttribute)
deriving DecidableEq, Repr, Inhabited

/-- One name of an export list. -/
structure ExportSpecifier where
  span : Span
  exposed : ModuleName
  localName : ModuleName
  typeOnly : Bool
deriving DecidableEq, Repr, Inhabited

/-- An export list, with the module it re-exports from, if any. -/
structure ExportList where
  span : Span
  typeOnly : Bool
  specifiers : List ExportSpecifier
  source : Option StringLiteral
deriving DecidableEq, Repr, Inhabited

/-- A re-export of all names of another module. -/
structure ExportAll where
  span : Span
  typeOnly : Bool
  alias? : Option ModuleName
  source : StringLiteral
  attributeKeyword : String
  attributes : Option (List ImportAttribute)
deriving DecidableEq, Repr, Inhabited

/-- What a block of declarations with a name is introduced by. -/
inductive NamespaceKind where
  | moduleBlock | namespaceBlock | globalBlock
deriving DecidableEq, Repr, Inhabited

mutual

/-- Expressions, together with the elements of array, object and markup literals.  A call or a
construction that is marked as pure has no effect beyond its value. -/
inductive Expr where
  | ident (span : Span) (name : String)
  | this (span : Span)
  | super (span : Span)
  | null (span : Span)
  | bool (span : Span) (value : Bool)
  | number (span : Span) (value : Binary64)
  | bigint (span : Span) (digits : String)
  | regex (span : Span) (pattern flags : String)
  | string (span : Span) (value : StringValue)
  | template (span : Span) (chunks : List TemplateChunk) (values : List Expr)
  | tagged (span : Span) (tag : Expr) (typeArgs : List TypeNode) (chunks : List TemplateChunk)
      (values : List Expr)
  | array (span : Span) (elements : List Expr)
  | object (span : Span) (members : List Expr)
  | property (span : Span) (key : Key) (value : Expr) (shorthand : Bool)
  | objectMethod (span : Span) (kind : MethodKind) (key : Key) (fn : Func)
  | spread (span : Span) (value : Expr)
  | hole (span : Span)
  | function (fn : Func)
  | arrow (fn : Func)
  | classExpr (decl : ClassDef)
  | unary (span : Span) (op : UnaryOp) (operand : Expr)
  | update (span : Span) (op : UpdateOp) (before : Bool) (operand : Expr)
  | binary (span : Span) (op : BinaryOp) (left right : Expr)
  | privateIn (span : Span) (name : String) (right : Expr)
  | assign (span : Span) (op : AssignOp) (target : Pattern) (value : Expr)
  | choice (span : Span) (test yes no : Expr)
  | sequence (span : Span) (items : List Expr)
  | call (span : Span) (callee : Expr) (typeArgs : List TypeNode) (args : List Expr)
      (optional isPure : Bool)
  | construct (span : Span) (callee : Expr) (typeArgs : List TypeNode) (args : List Expr)
      (isPure : Bool)
  | member (span : Span) (object : Expr) (property : Ident) (optional : Bool)
  | privateMember (span : Span) (object : Expr) (name : String) (optional : Bool)
  | index (span : Span) (object : Expr) (key : Expr) (optional : Bool)
  | chain (span : Span) (inner : Expr)
  | paren (span : Span) (inner : Expr)
  | await (span : Span) (operand : Expr)
  | yield (span : Span) (delegate : Bool) (operand : Option Expr)
  | importCall (span : Span) (phase : Option String) (source : Expr) (options : Option Expr)
  | metaProperty (span : Span) (object property : String)
  | asType (span : Span) (operand : Expr) (type : TypeNode)
  | satisfies (span : Span) (operand : Expr) (type : TypeNode)
  | typeAssertion (span : Span) (type : TypeNode) (operand : Expr)
  | nonNull (span : Span) (operand : Expr)
  | instantiate (span : Span) (operand : Expr) (typeArgs : List TypeNode)
  | element (span : Span) (tag : String) (typeArgs : List TypeNode) (attributes : List Expr)
      (children : List Expr) (selfClosing : Bool)
  | fragment (span : Span) (children : List Expr)
  | attribute (span : Span) (name : String) (value : Option Expr)
  | attributeText (span : Span) (raw : String)
  | markupText (span : Span) (raw : String)
  | container (span : Span) (inner : Option Expr)

/-- The key of a member of an object, a class or a type.  A number keeps its spelling. -/
inductive Key where
  | name (span : Span) (name : String)
  | string (span : Span) (value : StringValue)
  | number (span : Span) (value : Binary64) (raw : String)
  | bigint (span : Span) (digits : String)
  | privateName (span : Span) (name : String)
  | computed (inner : Expr)

/-- Types, together with type parameters and the members of object types. -/
inductive TypeNode where
  | keyword (span : Span) (name : String)
  | reference (span : Span) (path : List String) (args : List TypeNode)
  | query (span : Span) (target : TypeNode) (args : List TypeNode)
  | importType (span : Span) (argument : TypeNode) (options : Option Expr) (path : List String)
      (args : List TypeNode)
  | requireModule (span : Span) (source : StringLiteral)
  | string (span : Span) (value : StringValue)
  | number (span : Span) (negative : Bool) (raw : String)
  | bigint (span : Span) (negative : Bool) (digits : String)
  | template (span : Span) (chunks : List TemplateChunk) (types : List TypeNode)
  | array (span : Span) (item : TypeNode)
  | tuple (span : Span) (items : List TypeNode)
  | optional (span : Span) (item : TypeNode)
  | rest (span : Span) (item : TypeNode)
  | labeled (span : Span) (label : String) (optional : Bool) (item : TypeNode)
  | marked (span : Span) (mark : TypeMark) (behind : Bool) (item : TypeNode)
  | union (span : Span) (items : List TypeNode)
  | intersection (span : Span) (items : List TypeNode)
  | function (span : Span) (isNew isAbstract : Bool) (typeParams : List TypeNode)
      (params : List Param) (result : TypeNode)
  | choice (span : Span) (check bound yes no : TypeNode)
  | infer (span : Span) (param : TypeNode)
  | operator (span : Span) (word : String) (operand : TypeNode)
  | indexed (span : Span) (object key : TypeNode)
  | mapped (span : Span) (readonlyMod : MappedModifier) (name : String) (source : TypeNode)
      (rename : Option TypeNode) (optionalMod : MappedModifier) (type : Option TypeNode)
  | object (span : Span) (members : List TypeNode)
  | paren (span : Span) (inner : TypeNode)
  | predicate (span : Span) (asserts : Bool) (subject : String) (type : Option TypeNode)
  | propertySignature (span : Span) (isReadonly : Bool) (key : Key) (optional : Bool)
      (type : Option TypeNode)
  | methodSignature (span : Span) (kind : MethodKind) (key : Key) (optional : Bool)
      (typeParams : List TypeNode) (params : List Param) (result : Option TypeNode)
  | callSignature (span : Span) (isNew : Bool) (typeParams : List TypeNode)
      (params : List Param) (result : Option TypeNode)
  | indexSignature (span : Span) (isReadonly : Bool) (name : Ident) (key result : TypeNode)
  | parameter (span : Span) (modifiers : List String) (name : String)
      (bound default : Option TypeNode)

/-- Binding patterns and the targets of assignments.  A shorthand property was read without its
key.  An annotated pattern is one inside another that is marked as optional or has a type. -/
inductive Pattern where
  | ident (span : Span) (name : String)
  | object (span : Span) (properties : List Pattern)
  | property (span : Span) (key : Key) (value : Pattern) (shorthand : Bool)
  | array (span : Span) (elements : List Pattern)
  | hole (span : Span)
  | withDefault (span : Span) (target : Pattern) (value : Expr)
  | rest (span : Span) (target : Pattern)
  | annotated (target : Pattern) (optional : Bool) (type : Option TypeNode)
  | place (target : Expr)

/-- A parameter, or the variable of a catch clause. -/
structure Param where
  span : Span
  decorators : List Decorator
  access : Option Access
  overrides : Bool
  isReadonly : Bool
  target : Pattern
  optional : Bool
  type : Option TypeNode

/-- A function in any of its forms.  Calls of one that is marked as pure have no effect beyond
their value. -/
structure Func where
  span : Span
  name : Option Ident
  declared : Bool
  isAsync : Bool
  isGenerator : Bool
  isPure : Bool
  parenthesized : Bool
  typeParams : List TypeNode
  receiver : List Param
  params : List Param
  returnType : Option TypeNode
  body : Body

/-- The body of a function or of a namespace. -/
inductive Body where
  | missing
  | value (result : Expr)
  | block (span : Span) (directives : List Directive) (statements : List Stmt)

/-- A decorator in front of a class, a member or a parameter. -/
structure Decorator where
  span : Span
  expr : Expr

/-- A class.  That its name is one is part of it, since code that refers to the class is made up
from the name. -/
structure ClassDef where
  span : Span
  decorators : List Decorator
  declared : Bool
  isAbstract : Bool
  name : Option Ident
  typeParams : List TypeNode
  superClass : Option Expr
  superTypeArgs : List TypeNode
  interfaces : List TypeNode
  members : List Member
  named : (name.all fun n => isBindingName n.name) = true := by decide

/-- A method of a class, constructors and accessors included. -/
structure Method where
  span : Span
  decorators : List Decorator
  kind : MethodKind
  key : Key
  isStatic : Bool
  isAbstract : Bool
  access : Option Access
  optional : Bool
  fn : Func

/-- A field of a class.  Only accessors keep the word `override`. -/
structure Field where
  span : Span
  decorators : List Decorator
  key : Key
  isStatic : Bool
  isAbstract : Bool
  isReadonly : Bool
  declared : Bool
  overrides : Bool
  access : Option Access
  optional : Bool
  type : Option TypeNode
  value : Option Expr

/-- A member of a class.  An accessor is a field written with the word `accessor`. -/
inductive Member where
  | method (method : Method)
  | field (field : Field)
  | accessor (field : Field)
  | staticBlock (span : Span) (body : List Stmt)
  | indexSignature (span : Span) (isReadonly : Bool) (name : Ident) (key result : TypeNode)

/-- Statements and declarations. -/
inductive Stmt where
  | expression (span : Span) (value : Expr)
  | block (span : Span) (body : List Stmt)
  | empty (span : Span)
  | branch (span : Span) (test : Expr) (yes : Stmt) (no : Option Stmt)
  | forLoop (span : Span) (init : Option Stmt) (test update : Option Expr) (body : Stmt)
  | forIn (span : Span) (left : Stmt) (right : Expr) (body : Stmt)
  | forOf (span : Span) (isAwait : Bool) (left : Stmt) (right : Expr) (body : Stmt)
  | assignee (target : Pattern)
  | whileLoop (span : Span) (test : Expr) (body : Stmt)
  | doWhile (span : Span) (body : Stmt) (test : Expr)
  | continueTo (span : Span) (label : Option Ident)
  | breakTo (span : Span) (label : Option Ident)
  | returnValue (span : Span) (value : Option Expr)
  | withObject (span : Span) (object : Expr) (body : Stmt)
  | switchOn (span : Span) (value : Expr) (cases : List Stmt)
  | switchCase (span : Span) (test : Option Expr) (body : List Stmt)
  | labeled (span : Span) (label : Ident) (body : Stmt)
  | throwValue (span : Span) (value : Expr)
  | tryCatch (span : Span) (block : Stmt) (handler finalizer : Option Stmt)
  | catchClause (span : Span) (param : Option Param) (body : Stmt)
  | debugger (span : Span)
  | variableDecl (span : Span) (declared : Bool) (kind : VariableKind) (items : List Declarator)
  | function (fn : Func)
  | classDecl (decl : ClassDef)
  | importDecl (decl : ImportDecl)
  | exportDecl (span : Span) (decl : Stmt)
  | exportDefault (span : Span) (decl : Stmt)
  | exportDefaultValue (span : Span) (value : Expr)
  | exportList (exports : ExportList)
  | exportAll (exports : ExportAll)
  | exportAssign (span : Span) (value : Expr)
  | exportGlobal (span : Span) (name : Ident)
  | importAlias (span : Span) (name : Ident) (target : TypeNode)
  | typeAlias (span : Span) (declared : Bool) (name : Ident) (typeParams : List TypeNode)
      (type : TypeNode)
  | interface (span : Span) (name : Ident) (typeParams : List TypeNode)
      (parents : List TypeNode) (members : List TypeNode)
  | enumeration (span : Span) (declared isConst : Bool) (name : Ident) (members : List Stmt)
  | enumMember (span : Span) (key : Key) (value : Option Expr)
  | moduleBlock (span : Span) (declared : Bool) (kind : NamespaceKind) (name : List String)
      (external : Option StringLiteral) (body : Body)

/-- One variable of a declaration. -/
structure Declarator where
  span : Span
  target : Pattern
  definite : Bool
  optional : Bool
  type : Option TypeNode
  value : Option Expr

end

instance : Inhabited Expr := ⟨.this Span.detached⟩
instance : Inhabited Stmt := ⟨.empty Span.detached⟩
instance : Inhabited Pattern := ⟨.hole Span.detached⟩
instance : Inhabited TypeNode := ⟨.keyword Span.detached "any"⟩

end ComponentLowering.Syntax
