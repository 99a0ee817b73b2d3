/-
# Nodes

A node is a piece of syntax that stands at a place, whatever kind of syntax it is.  The nodes right below
it are its children, and all that can be reached over children stand within it.  A piece that only wraps
another one, as a statement does that is a class, is a node of its own at the place of the other.

Detaching a tree detaches its nodes one by one, so each node within a detached tree is detached, however
deep it stands.  What is read as a snippet is detached as a whole.
-/
import ComponentLowering.Code.Snippet
import ComponentLowering.Syntax.Place
import Mathlib.Logic.Relation

namespace ComponentLowering.Syntax

/-! ### Kinds of nodes -/

/-- A piece of syntax with a place. -/
inductive Node where
  | type (t : TypeNode)
  | expr (e : Expr)
  | key (k : Key)
  | pattern (p : Pattern)
  | param (p : Param)
  | func (fn : Func)
  | block (span : Span) (directives : List Directive) (statements : List Stmt)
  | decorator (d : Decorator)
  | classDef (decl : ClassDef)
  | method (m : Method)
  | field (f : Field)
  | member (m : Member)
  | stmt (s : Stmt)
  | declarator (d : Declarator)
  | ident (name : Ident)
  | literal (literal : StringLiteral)
  | chunk (chunk : TemplateChunk)
  | directive (d : Directive)
  | importSpecifier (s : ImportSpecifier)
  | importAttribute (a : ImportAttribute)
  | importDecl (d : ImportDecl)
  | exportSpecifier (s : ExportSpecifier)
  | exportList (e : ExportList)
  | exportAll (e : ExportAll)

/-- The place of an import specifier. -/
def ImportSpecifier.span : ImportSpecifier → Span
  | .default s _ | .allNames s _ | .named s _ _ _ => s

namespace Node

/-- The place of a node. -/
def span : Node → Span
  | .type t => t.span
  | .expr e => e.span
  | .key k => k.span
  | .pattern p => p.span
  | .param p => p.span
  | .func fn => fn.span
  | .block s _ _ => s
  | .decorator d => d.span
  | .classDef decl => decl.span
  | .method m => m.span
  | .field f => f.span
  | .member m => m.span
  | .stmt s => s.span
  | .declarator d => d.span
  | .ident name => name.span
  | .literal l => l.span
  | .chunk c => c.span
  | .directive d => d.span
  | .importSpecifier s => s.span
  | .importAttribute a => a.span
  | .importDecl d => d.span
  | .exportSpecifier s => s.span
  | .exportList e => e.span
  | .exportAll e => e.span

/-- A node without its place and those of the nodes within it. -/
def detach : Node → Node
  | .type t => .type t.detach
  | .expr e => .expr e.detach
  | .key k => .key k.detach
  | .pattern p => .pattern p.detach
  | .param p => .param p.detach
  | .func fn => .func fn.detach
  | .block _ directives statements =>
    .block .detached (directives.map Directive.detach) (detachStmts statements)
  | .decorator d => .decorator d.detach
  | .classDef decl => .classDef decl.detach
  | .method m => .method m.detach
  | .field f => .field f.detach
  | .member m => .member m.detach
  | .stmt s => .stmt s.detach
  | .declarator d => .declarator d.detach
  | .ident name => .ident name.detach
  | .literal l => .literal l.detach
  | .chunk c => .chunk c.detach
  | .directive d => .directive d.detach
  | .importSpecifier s => .importSpecifier s.detach
  | .importAttribute a => .importAttribute a.detach
  | .importDecl d => .importDecl d.detach
  | .exportSpecifier s => .exportSpecifier s.detach
  | .exportList e => .exportList e.detach
  | .exportAll e => .exportAll e.detach

end Node

/-! ### Children -/

/-- The nodes right below a type. -/
def TypeNode.children : TypeNode → List Node
  | .keyword _ _ | .string _ _ | .number _ _ _ | .bigint _ _ _ => []
  | .reference _ _ items | .tuple _ items | .union _ items | .intersection _ items | .object _ items =>
    items.map .type
  | .query _ target args => .type target :: args.map .type
  | .importType _ argument options _ args =>
    .type argument :: (options.toList.map .expr ++ args.map .type)
  | .requireModule _ source => [.literal source]
  | .template _ chunks types => chunks.map .chunk ++ types.map .type
  | .array _ item | .optional _ item | .rest _ item | .labeled _ _ _ item | .marked _ _ _ item
  | .infer _ item | .operator _ _ item | .paren _ item => [.type item]
  | .function _ _ _ typeParams params result =>
    typeParams.map .type ++ (params.map .param ++ [.type result])
  | .choice _ check bound yes no => [.type check, .type bound, .type yes, .type no]
  | .indexed _ inner index => [.type inner, .type index]
  | .mapped _ _ _ source rename _ type =>
    .type source :: (rename.toList.map .type ++ type.toList.map .type)
  | .predicate _ _ _ type => type.toList.map .type
  | .propertySignature _ _ key _ type => .key key :: type.toList.map .type
  | .methodSignature _ _ key _ typeParams params result =>
    .key key :: (typeParams.map .type ++ (params.map .param ++ result.toList.map .type))
  | .callSignature _ _ typeParams params result =>
    typeParams.map .type ++ (params.map .param ++ result.toList.map .type)
  | .indexSignature _ _ name key result => [.ident name, .type key, .type result]
  | .parameter _ _ _ bound default => bound.toList.map .type ++ default.toList.map .type

/-- The nodes right below an expression. -/
def Expr.children : Expr → List Node
  | .ident _ _ | .this _ | .super _ | .null _ | .bool _ _ | .number _ _ | .bigint _ _ | .regex _ _ _
  | .string _ _ | .hole _ | .metaProperty _ _ _ | .attributeText _ _ | .markupText _ _ => []
  | .template _ chunks values => chunks.map .chunk ++ values.map .expr
  | .tagged _ tag typeArgs chunks values =>
    .expr tag :: (typeArgs.map .type ++ (chunks.map .chunk ++ values.map .expr))
  | .array _ items | .object _ items | .sequence _ items | .fragment _ items => items.map .expr
  | .property _ key value _ => [.key key, .expr value]
  | .objectMethod _ _ key fn => [.key key, .func fn]
  | .function fn | .arrow fn => [.func fn]
  | .classExpr decl => [.classDef decl]
  | .spread _ inner | .unary _ _ inner | .update _ _ _ inner | .privateIn _ _ inner
  | .privateMember _ inner _ _ | .chain _ inner | .paren _ inner | .await _ inner
  | .nonNull _ inner => [.expr inner]
  | .binary _ _ left right => [.expr left, .expr right]
  | .assign _ _ target value => [.pattern target, .expr value]
  | .choice _ test yes no => [.expr test, .expr yes, .expr no]
  | .call _ callee typeArgs args _ _ | .construct _ callee typeArgs args _ =>
    .expr callee :: (typeArgs.map .type ++ args.map .expr)
  | .member _ inner name _ => [.expr inner, .ident name]
  | .index _ inner key _ => [.expr inner, .expr key]
  | .yield _ _ operand => operand.toList.map .expr
  | .importCall _ _ source options => .expr source :: options.toList.map .expr
  | .asType _ operand type | .satisfies _ operand type => [.expr operand, .type type]
  | .typeAssertion _ type operand => [.type type, .expr operand]
  | .instantiate _ operand typeArgs => .expr operand :: typeArgs.map .type
  | .element _ _ typeArgs attributes children _ =>
    typeArgs.map .type ++ (attributes.map .expr ++ children.map .expr)
  | .attribute _ _ value => value.toList.map .expr
  | .container _ inner => inner.toList.map .expr

/-- The node right below a key. -/
def Key.children : Key → List Node
  | .computed inner => [.expr inner]
  | .name _ _ | .string _ _ | .number _ _ _ | .bigint _ _ | .privateName _ _ => []

/-- The nodes right below a pattern. -/
def Pattern.children : Pattern → List Node
  | .ident _ _ | .hole _ => []
  | .object _ items | .array _ items => items.map .pattern
  | .property _ key value _ => [.key key, .pattern value]
  | .withDefault _ target value => [.pattern target, .expr value]
  | .rest _ target => [.pattern target]
  | .annotated target _ type => .pattern target :: type.toList.map .type
  | .place target => [.expr target]

/-- The node that a body is; one that is missing is none. -/
def Body.nodes : Body → List Node
  | .missing => []
  | .value result => [.expr result]
  | .block span directives statements => [.block span directives statements]

/-- The nodes right below a class member. -/
def Member.children : Member → List Node
  | .method m => [.method m]
  | .field f | .accessor f => [.field f]
  | .staticBlock _ body => body.map .stmt
  | .indexSignature _ _ name key result => [.ident name, .type key, .type result]

/-- The node that the name of an import or export is. -/
def ModuleName.node : ModuleName → Node
  | .ident name => .ident name
  | .string literal => .literal literal

/-- The nodes right below an import specifier. -/
def ImportSpecifier.children : ImportSpecifier → List Node
  | .default _ b | .allNames _ b => [.ident b]
  | .named _ imported b _ => [imported.node, .ident b]

/-- The nodes right below a statement. -/
def Stmt.children : Stmt → List Node
  | .empty _ | .debugger _ => []
  | .expression _ value | .throwValue _ value | .exportDefaultValue _ value | .exportAssign _ value =>
    [.expr value]
  | .block _ body => body.map .stmt
  | .branch _ test yes no => .expr test :: .stmt yes :: no.toList.map .stmt
  | .forLoop _ init test update body =>
    init.toList.map .stmt ++ (test.toList.map .expr ++ (update.toList.map .expr ++ [.stmt body]))
  | .forIn _ left right body | .forOf _ _ left right body => [.stmt left, .expr right, .stmt body]
  | .assignee target => [.pattern target]
  | .whileLoop _ test body | .withObject _ test body => [.expr test, .stmt body]
  | .doWhile _ body test => [.stmt body, .expr test]
  | .continueTo _ label | .breakTo _ label => label.toList.map .ident
  | .returnValue _ value => value.toList.map .expr
  | .switchOn _ value cases => .expr value :: cases.map .stmt
  | .switchCase _ test body => test.toList.map .expr ++ body.map .stmt
  | .labeled _ label body => [.ident label, .stmt body]
  | .tryCatch _ body handler finalizer =>
    .stmt body :: (handler.toList.map .stmt ++ finalizer.toList.map .stmt)
  | .catchClause _ param body => param.toList.map .param ++ [.stmt body]
  | .variableDecl _ _ _ items => items.map .declarator
  | .function fn => [.func fn]
  | .classDecl decl => [.classDef decl]
  | .importDecl decl => [.importDecl decl]
  | .exportDecl _ decl | .exportDefault _ decl => [.stmt decl]
  | .exportList exports => [.exportList exports]
  | .exportAll exports => [.exportAll exports]
  | .exportGlobal _ name => [.ident name]
  | .importAlias _ name target => [.ident name, .type target]
  | .typeAlias _ _ name typeParams type => .ident name :: (typeParams.map .type ++ [.type type])
  | .interface _ name typeParams parents members =>
    .ident name :: (typeParams.map .type ++ (parents.map .type ++ members.map .type))
  | .enumeration _ _ _ name members => .ident name :: members.map .stmt
  | .enumMember _ key value => .key key :: value.toList.map .expr
  | .moduleBlock _ _ _ _ external body => external.toList.map .literal ++ body.nodes

/-- The nodes right below a node. -/
def Node.children : Node → List Node
  | .type t => t.children
  | .expr e => e.children
  | .key k => k.children
  | .pattern p => p.children
  | .param p => p.decorators.map .decorator ++ .pattern p.target :: p.type.toList.map .type
  | .func fn =>
    fn.name.toList.map .ident ++ (fn.typeParams.map .type ++ (fn.receiver.map .param ++
      (fn.params.map .param ++ (fn.returnType.toList.map .type ++ fn.body.nodes))))
  | .block _ directives statements => directives.map .directive ++ statements.map .stmt
  | .decorator d => [.expr d.expr]
  | .classDef decl =>
    decl.decorators.map .decorator ++ (decl.name.toList.map .ident ++ (decl.typeParams.map .type ++
      (decl.superClass.toList.map .expr ++ (decl.superTypeArgs.map .type ++
        (decl.interfaces.map .type ++ decl.members.map .member)))))
  | .method m => m.decorators.map .decorator ++ [.key m.key, .func m.fn]
  | .field f =>
    f.decorators.map .decorator ++ .key f.key :: (f.type.toList.map .type ++ f.value.toList.map .expr)
  | .member m => m.children
  | .stmt s => s.children
  | .declarator d => .pattern d.target :: (d.type.toList.map .type ++ d.value.toList.map .expr)
  | .ident _ | .literal _ | .chunk _ | .directive _ => []
  | .importSpecifier s => s.children
  | .importAttribute a => [a.key.node, .literal a.value]
  | .importDecl d =>
    (d.specifiers.getD []).map .importSpecifier ++ .literal d.source ::
      (d.attributes.getD []).map .importAttribute
  | .exportSpecifier s => [s.exposed.node, s.localName.node]
  | .exportList e => e.specifiers.map .exportSpecifier ++ e.source.toList.map .literal
  | .exportAll e =>
    e.alias?.toList.map ModuleName.node ++ .literal e.source ::
      (e.attributes.getD []).map .importAttribute

/-- Whether a node is another one or stands below it, however deep. -/
def Within (root n : Node) : Prop := Relation.ReflTransGen (fun a b => b ∈ a.children) root n

/-! ### Detached nodes -/

theorem detachTypes_eq_map (ts : List TypeNode) : detachTypes ts = ts.map TypeNode.detach := by
  induction ts with
  | nil => rfl
  | cons t rest ih => rw [detachTypes, ih, List.map_cons]

theorem detachExprs_eq_map (es : List Expr) : detachExprs es = es.map Expr.detach := by
  induction es with
  | nil => rfl
  | cons e rest ih => rw [detachExprs, ih, List.map_cons]

theorem detachPatterns_eq_map (ps : List Pattern) : detachPatterns ps = ps.map Pattern.detach := by
  induction ps with
  | nil => rfl
  | cons p rest ih => rw [detachPatterns, ih, List.map_cons]

theorem detachParams_eq_map (ps : List Param) : detachParams ps = ps.map Param.detach := by
  induction ps with
  | nil => rfl
  | cons p rest ih => rw [detachParams, ih, List.map_cons]

theorem detachDecorators_eq_map (ds : List Decorator) :
    detachDecorators ds = ds.map Decorator.detach := by
  induction ds with
  | nil => rfl
  | cons d rest ih => rw [detachDecorators, ih, List.map_cons]

theorem detachMembers_eq_map (ms : List Member) : detachMembers ms = ms.map Member.detach := by
  induction ms with
  | nil => rfl
  | cons m rest ih => rw [detachMembers, ih, List.map_cons]

theorem detachStmts_eq_map (ss : List Stmt) : detachStmts ss = ss.map Stmt.detach := by
  induction ss with
  | nil => rfl
  | cons s rest ih => rw [detachStmts, ih, List.map_cons]

theorem detachItems_eq_map (ds : List Declarator) : detachItems ds = ds.map Declarator.detach := by
  induction ds with
  | nil => rfl
  | cons d rest ih => rw [detachItems, ih, List.map_cons]

theorem detachType?_eq_map (t : Option TypeNode) : detachType? t = t.map TypeNode.detach := by
  cases t <;> rfl

theorem detachExpr?_eq_map (e : Option Expr) : detachExpr? e = e.map Expr.detach := by
  cases e <;> rfl

theorem detachParam?_eq_map (p : Option Param) : detachParam? p = p.map Param.detach := by
  cases p <;> rfl

theorem detachStmt?_eq_map (s : Option Stmt) : detachStmt? s = s.map Stmt.detach := by
  cases s <;> rfl

@[simp] theorem TypeNode.children_detach (t : TypeNode) :
    t.detach.children = t.children.map Node.detach := by
  cases t <;> simp [TypeNode.detach, TypeNode.children, Node.detach, detachTypes_eq_map,
    detachParams_eq_map, detachType?_eq_map, detachExpr?_eq_map, Option.toList_map, Function.comp_def]

@[simp] theorem Expr.children_detach (e : Expr) : e.detach.children = e.children.map Node.detach := by
  cases e <;> simp [Expr.detach, Expr.children, Node.detach, detachTypes_eq_map, detachExprs_eq_map,
    detachExpr?_eq_map, Option.toList_map, Function.comp_def]

@[simp] theorem Key.children_detach (k : Key) : k.detach.children = k.children.map Node.detach := by
  cases k <;> simp [Key.detach, Key.children, Node.detach]

@[simp] theorem Pattern.children_detach (p : Pattern) :
    p.detach.children = p.children.map Node.detach := by
  cases p <;> simp [Pattern.detach, Pattern.children, Node.detach, detachPatterns_eq_map,
    detachType?_eq_map, Option.toList_map, Function.comp_def]

@[simp] theorem Body.nodes_detach (b : Body) : b.detach.nodes = b.nodes.map Node.detach := by
  cases b <;> simp [Body.detach, Body.nodes, Node.detach]

@[simp] theorem Member.children_detach (m : Member) :
    m.detach.children = m.children.map Node.detach := by
  cases m <;> simp [Member.detach, Member.children, Node.detach, detachStmts_eq_map, Function.comp_def]

@[simp] theorem ModuleName.node_detach (m : ModuleName) : m.detach.node = m.node.detach := by
  cases m <;> rfl

@[simp] theorem ImportSpecifier.children_detach (s : ImportSpecifier) :
    s.detach.children = s.children.map Node.detach := by
  cases s <;> simp [ImportSpecifier.detach, ImportSpecifier.children, Node.detach]

@[simp] theorem Stmt.children_detach (s : Stmt) : s.detach.children = s.children.map Node.detach := by
  cases s <;> simp [Stmt.detach, Stmt.children, Node.detach, detachTypes_eq_map, detachStmts_eq_map,
    detachItems_eq_map, detachExpr?_eq_map, detachParam?_eq_map, detachStmt?_eq_map, Option.toList_map,
    Function.comp_def]

namespace Node

/-- What stands right below a detached node are the detached children of the node. -/
theorem children_detach (n : Node) : n.detach.children = n.children.map detach := by
  cases n with
  | param x | func x | decorator x | classDef x | method x | field x | declarator x =>
    cases x
    simp [detach, children, Param.detach, Func.detach, Decorator.detach, ClassDef.detach, Method.detach,
      Field.detach, Declarator.detach, detachTypes_eq_map, detachParams_eq_map, detachDecorators_eq_map,
      detachMembers_eq_map, detachType?_eq_map, detachExpr?_eq_map, Option.toList_map, Function.comp_def]
  | importDecl d =>
    cases d with
    | mk span typeOnly phase specifiers source keyword attributes =>
      cases specifiers <;> cases attributes <;>
        simp [detach, children, ImportDecl.detach, Function.comp_def]
  | exportAll e =>
    cases e with
    | mk span typeOnly alias? source keyword attributes =>
      cases attributes <;>
        simp [detach, children, ExportAll.detach, Option.toList_map, Function.comp_def]
  | _ =>
    simp [detach, children, ImportAttribute.detach, ExportSpecifier.detach, ExportList.detach,
      detachStmts_eq_map, Option.toList_map, Function.comp_def]

end Node

@[simp] theorem TypeNode.span_detach (t : TypeNode) : t.detach.span = .detached := by
  cases t <;> rfl

@[simp] theorem Func.span_detach (fn : Func) : fn.detach.span = .detached := by
  cases fn
  rfl

@[simp] theorem ClassDef.span_detach (decl : ClassDef) : decl.detach.span = .detached := by
  cases decl
  rfl

@[simp] theorem Expr.span_detach (e : Expr) : e.detach.span = .detached := by
  cases e with
  | function fn | arrow fn => exact fn.span_detach
  | classExpr decl => exact decl.span_detach
  | _ => rfl

@[simp] theorem Key.span_detach (k : Key) : k.detach.span = .detached := by
  cases k with
  | computed inner => exact inner.span_detach
  | _ => rfl

/-- An annotated pattern stands where the pattern inside stands, which may be annotated too. -/
@[simp] theorem Pattern.span_detach (p : Pattern) : p.detach.span = .detached := by
  cases p with
  | annotated target => exact target.span_detach
  | place target => exact target.span_detach
  | _ => rfl

@[simp] theorem Method.span_detach (m : Method) : m.detach.span = .detached := by
  cases m
  rfl

@[simp] theorem Field.span_detach (f : Field) : f.detach.span = .detached := by
  cases f
  rfl

@[simp] theorem Member.span_detach (m : Member) : m.detach.span = .detached := by
  cases m with
  | method m => exact m.span_detach
  | field f | accessor f => exact f.span_detach
  | _ => rfl

@[simp] theorem Stmt.span_detach (s : Stmt) : s.detach.span = .detached := by
  cases s with
  | assignee target => exact target.span_detach
  | function fn => exact fn.span_detach
  | classDecl decl => exact decl.span_detach
  | _ => rfl

namespace Node

/-- A detached node stands nowhere. -/
theorem span_detach (n : Node) : n.detach.span = .detached := by
  cases n with
  | param x | decorator x | declarator x =>
    cases x
    rfl
  | importSpecifier s => cases s <;> rfl
  | type | expr | key | pattern | func | classDef | method | field | member | stmt =>
    simp [detach, span]
  | _ => rfl

/-- Everything within a detached node is detached: a child is by what a detached node holds, and so on
downwards. -/
theorem exists_of_within_detach {root n : Node} (within : Within root.detach n) :
    ∃ n', n = detach n' := by
  induction within with
  | refl => exact ⟨root, rfl⟩
  | tail _ below ih =>
    obtain ⟨parent, rfl⟩ := ih
    rw [children_detach] at below
    obtain ⟨child, -, rfl⟩ := List.mem_map.mp below
    exact ⟨child, rfl⟩

/-- Whether nothing within a node has a place. -/
def IsPlaceless (root : Node) : Prop := ∀ n, Within root n → n.span = .detached

theorem isPlaceless_detach (root : Node) : root.detach.IsPlaceless := by
  intro n within
  obtain ⟨n', rfl⟩ := exists_of_within_detach within
  exact n'.span_detach

theorem IsPlaceless.of_within {root inner : Node} (placeless : root.IsPlaceless)
    (within : Within root inner) : inner.IsPlaceless :=
  fun n deeper => placeless n (within.trans deeper)

/-! ### Nodes with a place -/

/-- Whether a property holds of each node within a node that does not start at the top of the text. -/
def EachPlaced (P : Node → Prop) (root : Node) : Prop :=
  ∀ n, Within root n → n.span.start ≠ 0 → P n

variable {P : Node → Prop} {root : Node}

theorem EachPlaced.intro (own : root.span.start ≠ 0 → P root)
    (below : ∀ n ∈ root.children, n.EachPlaced P) : root.EachPlaced P := by
  intro n within
  rcases Relation.ReflTransGen.cases_head within with rfl | ⟨child, mem, deeper⟩
  · exact own
  · exact below child mem n deeper

/-- A node that wraps another one owes what it owes itself, besides what the other one does. -/
theorem EachPlaced.over {inner : Node} (own : root.span.start ≠ 0 → P root)
    (only : root.children = [inner]) (below : inner.EachPlaced P) : root.EachPlaced P := by
  refine .intro own fun n child => ?_
  rw [only] at child
  obtain rfl := List.mem_singleton.mp child
  exact below

/-- A node at the top owes nothing but what stands below it. -/
theorem EachPlaced.of_top (top : root.span.start = 0) (below : ∀ n ∈ root.children, n.EachPlaced P) :
    root.EachPlaced P :=
  .intro (absurd top) below

theorem IsPlaceless.eachPlaced (placeless : root.IsPlaceless) : root.EachPlaced P := by
  intro n within placed
  rw [placeless n within] at placed
  exact absurd rfl placed

end Node

end ComponentLowering.Syntax

namespace ComponentLowering.Code

open ComponentLowering.Syntax

variable {text : String}

/-! ### Snippets -/

/-- The statements of a snippet stand nowhere, and so does all that they are made of. -/
theorem isPlaceless_of_statements {body : List Stmt} (read : statements text = .ok body) {s : Stmt}
    (mem : s ∈ body) : (Node.stmt s).IsPlaceless := by
  unfold statements at read
  split at read
  · cases read
  · cases read
    rw [detachStmts_eq_map] at mem
    obtain ⟨s', -, rfl⟩ := List.mem_map.mp mem
    exact (Node.stmt s').isPlaceless_detach

theorem isPlaceless_of_statement {s : Stmt} (read : statement text = .ok s) :
    (Node.stmt s).IsPlaceless := by
  unfold statement at read
  cases all : statements text with
  | error e =>
    rw [all] at read
    cases read
  | ok body =>
    rw [all] at read
    cases body with
    | nil => cases read
    | cons first rest =>
      cases read
      exact isPlaceless_of_statements all List.mem_cons_self

/-- The members of a snippet stand in a class that is read from a text around them. -/
theorem isPlaceless_of_classMembers {members : List Member} (read : classMembers text = .ok members)
    {m : Member} (mem : m ∈ members) : (Node.member m).IsPlaceless := by
  have around {decl : ClassDef} {rest : List Stmt}
      (all : statements (classAround text) = .ok (.classDecl decl :: rest)) (mem : m ∈ decl.members) :
      (Node.member m).IsPlaceless := by
    have placeless := isPlaceless_of_statements all List.mem_cons_self
    have inside : Node.member m ∈ (Node.classDef decl).children := by simp [Node.children, mem]
    exact placeless.of_within (.tail (.single List.mem_cons_self) inside)
  unfold classMembers at read
  cases all : statements (classAround text) with
  | error e =>
    rw [all] at read
    cases read
  | ok body =>
    rw [all] at read
    simp only [bind, Except.bind] at read
    split at read
    · cases read
      exact around all mem
    · cases read

/-- Whether nothing that a text is read as has a place, whichever way it is read. -/
structure IsReadPlaceless (text : String) : Prop where
  statements : ∀ body, statements text = .ok body → ∀ s ∈ body, (Node.stmt s).IsPlaceless
  statement : ∀ s, statement text = .ok s → (Node.stmt s).IsPlaceless
  members : ∀ ms, classMembers text = .ok ms → ∀ m ∈ ms, (Node.member m).IsPlaceless

theorem isReadPlaceless (text : String) : IsReadPlaceless text where
  statements _ read _ := isPlaceless_of_statements read
  statement _ := isPlaceless_of_statement
  members _ read _ := isPlaceless_of_classMembers read

end ComponentLowering.Code
