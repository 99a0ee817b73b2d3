/-
# Places of syntax

Where a piece of syntax stands in the text.  The place of a class starts at its first decorator.
-/
import ComponentLowering.Syntax.Tree

namespace ComponentLowering.Syntax

/-- The place of an expression. -/
def Expr.span : Expr → Span
  | .ident s _ | .this s | .super s | .null s | .bool s _ | .number s _ | .bigint s _
  | .regex s _ _ | .string s _ | .template s _ _ | .tagged s _ _ _ _ | .array s _ | .object s _
  | .property s _ _ _ | .objectMethod s _ _ _ | .spread s _ | .hole s | .unary s _ _
  | .update s _ _ _ | .binary s _ _ _ | .privateIn s _ _ | .assign s _ _ _ | .choice s _ _ _
  | .sequence s _ | .call s _ _ _ _ _ | .construct s _ _ _ _ | .member s _ _ _
  | .privateMember s _ _ _ | .index s _ _ _ | .chain s _ | .paren s _ | .await s _
  | .yield s _ _ | .importCall s _ _ _ | .metaProperty s _ _ | .asType s _ _
  | .satisfies s _ _ | .typeAssertion s _ _ | .nonNull s _ | .instantiate s _ _
  | .element s _ _ _ _ _ | .fragment s _ | .attribute s _ _ | .attributeText s _
  | .markupText s _ | .container s _ => s
  | .function f | .arrow f => f.span
  | .classExpr c => c.span

/-- The place of a class member. -/
def Member.span : Member → Span
  | .method m => m.span
  | .field f | .accessor f => f.span
  | .staticBlock s _ | .indexSignature s _ _ _ _ => s

/-- The place of a key. -/
def Key.span : Key → Span
  | .name s _ | .string s _ | .number s _ _ | .bigint s _ | .privateName s _ => s
  | .computed inner => inner.span

/-- The place of a pattern. -/
def Pattern.span : Pattern → Span
  | .ident s _ | .object s _ | .property s _ _ _ | .array s _ | .hole s | .withDefault s _ _
  | .rest s _ => s
  | .annotated target _ _ => target.span
  | .place target => target.span

/-- The place of a statement. -/
def Stmt.span : Stmt → Span
  | .expression s _ | .block s _ | .empty s | .branch s _ _ _ | .forLoop s _ _ _ _
  | .forIn s _ _ _ | .forOf s _ _ _ _ | .whileLoop s _ _ | .doWhile s _ _ | .continueTo s _
  | .breakTo s _ | .returnValue s _ | .withObject s _ _ | .switchOn s _ _ | .switchCase s _ _
  | .labeled s _ _ | .throwValue s _ | .tryCatch s _ _ _ | .catchClause s _ _ | .debugger s
  | .variableDecl s _ _ _
  | .exportDecl s _ | .exportDefault s _ | .exportDefaultValue s _ | .exportAssign s _
  | .exportGlobal s _ | .importAlias s _ _ | .typeAlias s _ _ _ _ | .interface s _ _ _ _
  | .enumeration s _ _ _ _ | .enumMember s _ _ | .moduleBlock s _ _ _ _ _ => s
  | .assignee target => target.span
  | .function fn => fn.span
  | .classDecl decl => decl.span
  | .importDecl decl => decl.span
  | .exportList exports => exports.span
  | .exportAll exports => exports.span

/-- The place of a type. -/
def TypeNode.span : TypeNode → Span
  | .keyword s _ | .reference s _ _ | .query s _ _ | .importType s _ _ _ _ | .requireModule s _
  | .string s _ | .number s _ _ | .bigint s _ _ | .template s _ _ | .array s _ | .tuple s _
  | .optional s _ | .rest s _ | .labeled s _ _ _ | .marked s _ _ _ | .union s _ | .intersection s _
  | .function s _ _ _ _ _ | .choice s _ _ _ _ | .infer s _ | .operator s _ _ | .indexed s _ _
  | .mapped s _ _ _ _ _ _ | .object s _ | .paren s _ | .predicate s _ _ _
  | .propertySignature s _ _ _ _ | .methodSignature s _ _ _ _ _ _ | .callSignature s _ _ _ _
  | .indexSignature s _ _ _ _ | .parameter s _ _ _ _ => s

end ComponentLowering.Syntax
