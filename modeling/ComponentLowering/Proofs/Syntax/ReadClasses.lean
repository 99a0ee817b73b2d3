/-
# Classes as they are read

What the grammar says about the classes that the statements of a module declare.  A field is never
named like the constructor, a class is never called `implements`, and a decorated class is called
`await` only in a script.  Nothing is said about classes within other syntax.
-/
import ComponentLowering.Component.Annotation
import ComponentLowering.Lowering.ClassStatement
import ComponentLowering.Proofs.Syntax.MadeStatements

namespace ComponentLowering.Syntax

open ComponentLowering.Component ComponentLowering.Lowering

/-! ### What parsers yield -/

namespace Parser

variable {α β : Type} {c : Surroundings} {s : Reading} {Q : α → Reading → Prop}
  {R : β → Reading → Prop}

/-- Whether every value and state that a parser succeeds with have some property. -/
def Yields (p : Parser α) (c : Surroundings) (s : Reading) (Q : α → Reading → Prop) : Prop :=
  ∀ a s', p c s = (.ok a, s') → Q a s'

theorem Yields.imp {p : Parser α} {Q' : α → Reading → Prop} (h : Yields p c s Q)
    (imp : ∀ a s', Q a s' → Q' a s') : Yields p c s Q' :=
  fun a s' eq => imp a s' (h a s' eq)

theorem Yields.of_forall {p : Parser α} (h : ∀ a s', Q a s') : Yields p c s Q :=
  fun a s' _ => h a s'

/-- A parser yields nothing else exactly if nothing else is reached. -/
theorem yields_iff {p : Parser α} : Yields p c s Q ↔ ¬ Reaches p c s fun a s' => ¬ Q a s' := by
  simp only [Yields, Reaches, not_exists, not_and, not_not]

@[simp]
theorem yields_true {p : Parser α} : Yields p c s (fun _ _ => True) ↔ True :=
  iff_true_intro fun _ _ _ => trivial

@[simp]
theorem yields_bind {p : Parser α} {f : α → Parser β} :
    Yields (p >>= f) c s R ↔ Yields p c s fun a s' => Yields (f a) c s' R := by
  simp only [yields_iff, reaches_bind, not_not]

@[simp]
theorem yields_pure {a : α} : Yields (pure a : Parser α) c s Q ↔ Q a s := by
  simp only [yields_iff, reaches_pure, not_not]

@[simp]
theorem yields_map {f : α → β} {p : Parser α} :
    Yields (f <$> p) c s R ↔ Yields p c s fun a s' => R (f a) s' := by
  simp only [yields_iff, reaches_map]

@[simp]
theorem yields_failure : Yields (failure : Parser α) c s Q ↔ True := by
  simp only [yields_iff, reaches_failure, not_false_eq_true]

@[simp]
theorem yields_ite {condition : Prop} [Decidable condition] {p q : Parser α} :
    Yields (if condition then p else q) c s Q ↔
      (condition → Yields p c s Q) ∧ (¬ condition → Yields q c s Q) := by
  split <;> simp [*]

@[simp]
theorem yields_dite {condition : Prop} [Decidable condition] {p : condition → Parser α}
    {q : ¬ condition → Parser α} :
    Yields (if h : condition then p h else q h) c s Q ↔
      (∀ h, Yields (p h) c s Q) ∧ ∀ h, Yields (q h) c s Q := by
  split <;> simp [*]

@[simp]
theorem yields_within {change : Surroundings → Surroundings} {p : Parser α} :
    Yields (within change p) c s Q ↔ Yields p (change c) s Q := Iff.rfl

@[simp]
theorem yields_ensure {condition : Bool} {Q : PUnit → Reading → Prop} :
    Yields (ensure condition) c s Q ↔ (condition = true → Q ⟨⟩ s) := by
  simp only [yields_iff, reaches_ensure, not_and, not_not]

@[simp]
theorem yields_read {Q : Surroundings → Reading → Prop} :
    Yields (read : Parser Surroundings) c s Q ↔ Q c s := by
  simp only [yields_iff, reaches_read, not_not]

@[simp]
theorem yields_peek {Q : Token → Reading → Prop} : Yields peek c s Q ↔ Q s.token s := by
  simp only [yields_iff, reaches_peek, not_not]

@[simp]
theorem yields_startOffset {Q : Nat → Reading → Prop} :
    Yields startOffset c s Q ↔ Q s.token.span.start s := by
  simp only [yields_iff, reaches_startOffset, not_not]

@[simp]
theorem yields_spanFrom {start : Nat} {Q : Span → Reading → Prop} :
    Yields (spanFrom start) c s Q ↔ Q ⟨start, s.lastEnd⟩ s := by
  simp only [yields_iff, reaches_spanFrom, not_not]

/-- An answer that may be missing, looked at both ways. -/
@[simp 1100]
theorem yields_bind_option {p : Parser (Option α)} {f : Option α → Parser β} :
    Yields (p >>= f) c s R ↔ Yields p c s fun a s' =>
      (∀ b, a = some b → Yields (f (some b)) c s' R) ∧ (a = none → Yields (f none) c s' R) := by
  rw [yields_bind]
  constructor
  · exact fun h => h.imp fun a s' here => ⟨fun b eq => eq ▸ here, fun eq => eq ▸ here⟩
  · refine fun h => h.imp fun a s' here => ?_
    cases a with
    | none => exact here.2 rfl
    | some b => exact here.1 b rfl

/-- All that is collected has what each step yields. -/
theorem yields_collect {step : Parser (Option α)} (P : α → Prop)
    (h : ∀ s, Yields step c s fun a _ => ∀ b, a = some b → P b) :
    Yields (collect step) c s fun items _ => ∀ a ∈ items, P a := by
  have from' (fuel : Nat) : ∀ (acc : List α) (s : Reading), (∀ a ∈ acc, P a) →
      Yields (repeatFrom step fuel acc) c s fun items _ => ∀ a ∈ items, P a := by
    induction fuel with
    | zero => exact fun acc s _ => yields_failure.mpr trivial
    | succ fuel ih =>
        intro acc s kept
        unfold repeatFrom
        refine yields_bind.mpr ((h s).imp fun a s' here => ?_)
        cases a with
        | none => simpa using kept
        | some a => exact ih (a :: acc) s' (List.forall_mem_cons.mpr ⟨here a rfl, kept⟩)
  unfold collect
  refine yields_bind.mpr (.of_forall fun fuel s' => ?_)
  exact from' _ [] s' (by simp)

/-! ### Members -/

variable (r : Rules)

/-- Whether a member is no field that is named like the constructor. -/
def isPlainlyNamed : Member → Bool
  | .field f => !f.key.isConstructorName
  | _ => true

@[simp]
theorem isPlainlyNamed_field (f : Field) :
    isPlainlyNamed (.field f) = !f.key.isConstructorName := rfl

@[simp]
theorem isPlainlyNamed_accessor (f : Field) : isPlainlyNamed (.accessor f) = true := rfl

@[simp]
theorem isPlainlyNamed_method (m : Method) : isPlainlyNamed (.method m) = true := rfl

@[simp]
theorem isPlainlyNamed_staticBlock (span : Span) (body : List Stmt) :
    isPlainlyNamed (.staticBlock span body) = true := rfl

@[simp]
theorem isPlainlyNamed_indexSignature (span : Span) (isReadonly : Bool) (name : Ident)
    (key result : TypeNode) :
    isPlainlyNamed (.indexSignature span isReadonly name key result) = true := rfl

@[simp]
theorem yields_methodFrom (start : Nat) (decs : List Decorator) (words : List String)
    (kind : MethodKind) (isGenerator : Bool) (key : Key) (optional : Bool) :
    Yields (methodFrom r start decs words kind isGenerator key optional) c s fun m _ =>
      isPlainlyNamed m = true := by
  simp [methodFrom]

theorem yields_fieldFrom (start : Nat) (decs : List Decorator) {words : List String} {key : Key}
    (optional : Bool) (h : "accessor" ∈ words ∨ key.isConstructorName = false) :
    Yields (fieldFrom r start decs words key optional) c s fun m _ => isPlainlyNamed m = true := by
  unfold fieldFrom
  by_cases accessor : "accessor" ∈ words
  · simp [accessor]
  · simp [accessor, h.resolve_left accessor]

@[simp]
theorem yields_keyedMember (start : Nat) (decs : List Decorator) (words : List String) :
    Yields (keyedMember r start decs words) c s fun m _ => isPlainlyNamed m = true := by
  unfold keyedMember
  simp +contextual [yields_fieldFrom]

@[simp]
theorem yields_classMember : Yields (classMember r) c s fun m _ => isPlainlyNamed m = true := by
  unfold classMember classMemberFrom accessorFrom constructorFrom classIndexSignature staticBlock
  simp

theorem yields_classBody :
    Yields (classBody r) c s fun members _ => ∀ m ∈ members, isPlainlyNamed m = true := by
  unfold classBody
  simp only [yields_bind, yields_within]
  refine .of_forall fun _ s => (yields_collect (fun m => isPlainlyNamed m = true) fun s => ?_).imp
    fun members s' named => ?_
  · simp
  · exact .of_forall fun _ _ => yields_pure.mpr named

/-! ### Classes -/

/-- What holds of a class that is read.  Where `await` is an operator, no decorated class is called so;
a class behind the words that only typed modules know may be, and has no decorators. -/
structure IsRead (isAwait : Bool) (decl : ClassDef) : Prop where
  members : ∀ m ∈ decl.members, isPlainlyNamed m = true
  notImplements : ∀ n, decl.name = some n → n.name ≠ "implements"
  notAwait : isAwait = true → decl.decorators ≠ [] → ∀ n, decl.name = some n → n.name ≠ "await"

theorem yields_className? :
    Yields className? c s fun n _ => ∀ m, n = some m →
      m.name ≠ "implements" ∧ (c.isAwait = true → m.name ≠ "await") := by
  unfold className? name
  simp only [yields_bind, yields_peek, yields_ite, yields_map]
  constructor
  · intro h
    split
    · rename_i n escaped lexeme
      have notImplements : n ≠ "implements" := by
        simpa [Token.isWord, lexeme] using (Bool.and_eq_true_iff.mp h).2
      simp only [yields_bind, yields_read, yields_ite]
      refine ⟨fun _ => yields_failure.mpr trivial, fun allowed => .of_forall fun _ _ => ?_⟩
      refine yields_pure.mpr ?_
      rintro m ⟨⟩
      refine ⟨notImplements, ?_⟩
      rintro isAwait rfl
      simp [isAwait] at allowed
    · exact yields_failure.mpr trivial
  · intro _
    exact yields_pure.mpr (by simp)

theorem yields_classFrom (start : Nat) (decs : List Decorator) (declared isAbstract : Bool) :
    Yields (classFrom r start decs declared isAbstract) c s fun decl _ =>
      decl.decorators = decs ∧ IsRead c.isAwait decl := by
  unfold classFrom
  simp only [yields_bind]
  refine .of_forall fun _ s => yields_className?.imp fun n s names => .of_forall fun types s => ?_
  have rest (parent : Option Expr) (args interfaces : List TypeNode) (s : Reading) :
      (classBody r).Yields c s fun members s => (spanFrom start).Yields c s fun whole s =>
        ∀ named, IsRead c.isAwait ⟨whole, decs, declared, isAbstract, n, types, parent, args,
          interfaces, members, named⟩ :=
    (yields_classBody r).imp fun members s plain => .of_forall fun whole s named =>
      ⟨plain, fun m eq => (names m eq).1, fun isAwait _ m eq => (names m eq).2 isAwait⟩
  simp only [yields_ite, yields_bind, yields_pure, yields_dite, yields_failure, true_and, rest,
    implies_true, and_true, yields_true]

theorem yields_classDeclaration (start : Nat) (decs : List Decorator) (words : List String) :
    Yields (classDeclaration r start decs words) c s fun decl _ =>
      decl.decorators = decs ∧ IsRead c.isAwait decl := by
  unfold classDeclaration
  exact yields_bind.mpr (.of_forall fun _ s => yields_classFrom r start decs _ _)

/-- What is said about a class without decorators does not depend on where it stands. -/
theorem IsRead.undecorated {isAwait : Bool} {decl : ClassDef} (h : IsRead isAwait decl)
    (none : decl.decorators = []) (isAwait' : Bool) : IsRead isAwait' decl :=
  ⟨h.members, h.notImplements, fun _ decorated => absurd none decorated⟩

/-! ### Statements without classes -/

/-- Whether a parser yields only statements that declare no class. -/
def DeclaresNone (p : Parser Stmt) : Prop := ∀ c s, Yields p c s fun t _ => class? t = none

theorem declaresNone_block : DeclaresNone (blockStatement r) := by
  simp [DeclaresNone, blockStatement, class?]

theorem declaresNone_branch : DeclaresNone (branchStatement r) := by
  simp [DeclaresNone, branchStatement, class?]

theorem declaresNone_for : DeclaresNone (forStatement r) := by
  simp [DeclaresNone, forStatement, forDeclared, forExpression, forEachRest, forRest, class?]

theorem declaresNone_while : DeclaresNone (whileStatement r) := by
  simp [DeclaresNone, whileStatement, class?]

theorem declaresNone_do : DeclaresNone (doStatement r) := by
  simp [DeclaresNone, doStatement, class?]

theorem declaresNone_jump {make : Span → Option Ident → Stmt}
    (h : ∀ span label, class? (make span label) = none) : DeclaresNone (jumpStatement make) := by
  simp [DeclaresNone, jumpStatement, h]

theorem declaresNone_return : DeclaresNone (returnStatement r) := by
  simp [DeclaresNone, returnStatement, class?]

theorem declaresNone_throw : DeclaresNone (throwStatement r) := by
  simp [DeclaresNone, throwStatement, class?]

theorem declaresNone_with : DeclaresNone (withStatement r) := by
  simp [DeclaresNone, withStatement, class?]

theorem declaresNone_switch : DeclaresNone (switchStatement r) := by
  simp [DeclaresNone, switchStatement, class?]

theorem declaresNone_try : DeclaresNone (tryStatement r) := by
  simp [DeclaresNone, tryStatement, class?]

theorem declaresNone_expression : DeclaresNone (expressionStatement r) := by
  simp [DeclaresNone, expressionStatement, class?]

theorem declaresNone_function (isSingle : Bool) : DeclaresNone (functionStatement r isSingle) := by
  simp [DeclaresNone, functionStatement, class?]

theorem declaresNone_variable (isLet isSingle : Bool) :
    DeclaresNone (variableOr r isLet isSingle (expressionStatement r)) := by
  simp [DeclaresNone, variableOr, variableStatement, declaresNone_expression r _ _]
  simp [class?]

theorem declaresNone_let (isSingle : Bool) : DeclaresNone (letStatement r isSingle) := by
  simp [DeclaresNone, letStatement, declaresNone_variable r _ _ _ _]
  simp [class?]

theorem declaresNone_importAlias (start : Nat) : DeclaresNone (importAliasFrom start) := by
  simp [DeclaresNone, importAliasFrom, class?]

theorem declaresNone_importFrom (start : Nat) (typeOnly : Bool) (phase : Option String) :
    DeclaresNone (importFrom start typeOnly phase) := by
  intro c s
  unfold importFrom
  simp only [yields_bind, yields_peek, yields_ite, yields_pure]
  constructor
  · refine fun _ => .of_forall fun n s => ?_
    split <;> simp [class?]
  · intro _
    split <;> simp [class?]

theorem declaresNone_import : DeclaresNone importStatement := by
  simp [DeclaresNone, importStatement, importRest, declaresNone_importAlias _ _ _,
    declaresNone_importFrom _ _ _ _ _]

theorem declaresNone_typeAlias (start : Nat) (declared : Bool) :
    DeclaresNone (typeAliasFrom r start declared) := by
  simp [DeclaresNone, typeAliasFrom, class?]

theorem declaresNone_interface (start : Nat) : DeclaresNone (interfaceFrom r start) := by
  simp [DeclaresNone, interfaceFrom, class?]

theorem declaresNone_enumeration (start : Nat) (declared isConst : Bool) :
    DeclaresNone (enumerationFrom r start declared isConst) := by
  simp [DeclaresNone, enumerationFrom, class?]

theorem declaresNone_moduleBlock (start : Nat) (declared : Bool) (kind : NamespaceKind) :
    DeclaresNone (moduleBlockFrom r start declared kind) := by
  intro c s
  unfold moduleBlockFrom
  rw [yields_bind, yields_peek]
  split <;> simp [class?]

theorem declaresNone_variables (start : Nat) (declared : Bool) (kind : VariableKind) :
    DeclaresNone (variableStatement r start declared kind) := by
  simp [DeclaresNone, variableStatement, class?]

theorem declaresNone_typedDeclaration (start : Nat) (words : List String) :
    DeclaresNone (typedDeclaration r start words) := by
  intro c s
  unfold typedDeclaration
  simp only [yields_bind]
  refine .of_forall fun _ s => .of_forall fun _ s => .of_forall fun _ s => .of_forall fun _ s =>
    .of_forall fun word s => ?_
  split
  · exact declaresNone_typeAlias r _ _ _ _
  · exact declaresNone_interface r _ _ _
  · exact declaresNone_enumeration r _ _ _ _ _
  · exact declaresNone_moduleBlock r _ _ _ _ _
  · exact declaresNone_moduleBlock r _ _ _ _ _
  · exact declaresNone_moduleBlock r _ _ _ _ _
  · exact declaresNone_importAlias _ _ _
  · exact yields_failure.mpr trivial

theorem declaresNone_exportList (start : Nat) (typeOnly : Bool) :
    DeclaresNone (exportListFrom start typeOnly) := by
  simp [DeclaresNone, exportListFrom, class?]

theorem declaresNone_exportAll (start : Nat) (typeOnly : Bool) :
    DeclaresNone (exportAllFrom start typeOnly) := by
  simp [DeclaresNone, exportAllFrom, class?]

theorem yields_typedExport? (start : Nat) :
    Yields (typedExport? r start) c s fun t _ => ∀ u, t = some u → class? u = none := by
  simp [typedExport?, importAliasFrom, declaresNone_exportList _ _ _ _,
    declaresNone_exportAll _ _ _ _]
  simp [class?]

/-! ### Statements -/

/-- What holds of a statement that is read. -/
def IsReadStatement (isAwait : Bool) (statement : Stmt) : Prop :=
  ∀ decl, class? statement = some decl → IsRead isAwait decl

theorem IsReadStatement.of_none {isAwait : Bool} {statement : Stmt}
    (h : class? statement = none) : IsReadStatement isAwait statement := by
  intro decl cls
  rw [h] at cls
  cases cls

@[simp]
theorem isReadStatement_classDecl {isAwait : Bool} {decl : ClassDef} :
    IsReadStatement isAwait (.classDecl decl) ↔ IsRead isAwait decl := by
  simp [IsReadStatement, class?]

@[simp]
theorem isReadStatement_exportDecl_classDecl {isAwait : Bool} {span : Span} {decl : ClassDef} :
    IsReadStatement isAwait (.exportDecl span (.classDecl decl)) ↔ IsRead isAwait decl := by
  simp [IsReadStatement, class?]

@[simp]
theorem isReadStatement_exportDefault_classDecl {isAwait : Bool} {span : Span} {decl : ClassDef} :
    IsReadStatement isAwait (.exportDefault span (.classDecl decl)) ↔ IsRead isAwait decl := by
  simp [IsReadStatement, class?]

theorem DeclaresNone.yields {p : Parser Stmt} (h : DeclaresNone p) (isAwait : Bool) :
    Yields p c s fun t _ => IsReadStatement isAwait t :=
  (h c s).imp fun _ _ none => .of_none none

theorem isReadStatement_exportDecl {isAwait : Bool} {span : Span} {statement : Stmt}
    (h : IsReadStatement isAwait statement) :
    IsReadStatement isAwait (.exportDecl span statement) := by
  intro decl cls
  cases statement <;> first | exact h decl cls | cases cls

theorem isReadStatement_notePureFunction {isAwait : Bool} {statement : Stmt} :
    IsReadStatement isAwait statement.notePureFunction ↔ IsReadStatement isAwait statement := by
  have same : class? statement.notePureFunction = class? statement := by
    unfold Stmt.notePureFunction
    split <;> rfl
  unfold IsReadStatement
  rw [same]

theorem yields_declaration (isAwait : Bool) :
    Yields (declaration r) c s fun t _ => IsReadStatement isAwait t := by
  have undecorated (start : Nat) (words : List String) (c : Surroundings) (s : Reading) :
      Yields (classDeclaration r start [] words) c s fun decl _ => IsRead isAwait decl :=
    (yields_classDeclaration r start [] words).imp fun _ _ is => is.2.undecorated is.1 isAwait
  have functions (fn : Func) : IsReadStatement isAwait (.function fn) := .of_none rfl
  unfold declaration declarationFrom
  simp [undecorated, functions, (declaresNone_variables r _ _ _).yields isAwait,
    (declaresNone_typedDeclaration r _ _).yields isAwait]

theorem yields_decoratedClass (start : Nat) (decs : List Decorator) :
    Yields (decoratedClass r start decs) c s fun decl _ => IsRead c.isAwait decl := by
  unfold decoratedClass
  exact yields_bind.mpr (.of_forall fun words s =>
    (yields_classDeclaration r start decs words).imp fun _ _ => And.right)

theorem yields_exportDefaultFrom (start : Nat) (decs : List Decorator) :
    Yields (exportDefaultFrom r start decs) c s fun t _ => IsReadStatement c.isAwait t := by
  have classes (start : Nat) (decs : List Decorator) (words : List String) (s : Reading) :=
    (@yields_classDeclaration c s r start decs words).imp fun _ _ => And.right
  unfold exportDefaultFrom interfaceFrom
  simp [classes]
  simp [IsReadStatement, class?]

theorem yields_exportStatement (decs : List Decorator) :
    Yields (exportStatement r decs) c s fun t _ => IsReadStatement c.isAwait t := by
  have typed (start : Nat) (s : Reading) :
      Yields (typedExport? r start) c s fun t s' =>
        (∀ u, t = some u → IsReadStatement c.isAwait u) ∧
          (t = none → Yields (declaration r) c s' fun u s'' =>
            IsReadStatement c.isAwait (.exportDecl ⟨start, s''.lastEnd⟩ u)) :=
    (yields_typedExport? r start).imp fun t s' none =>
      ⟨fun u eq => .of_none (none u eq), fun _ =>
        (yields_declaration r c.isAwait).imp fun _ _ => isReadStatement_exportDecl⟩
  unfold exportStatement
  simp [yields_exportDefaultFrom, yields_decoratedClass, typed,
    (declaresNone_exportList _ _).yields c.isAwait, (declaresNone_exportAll _ _).yields c.isAwait]

theorem yields_typedStatement :
    Yields (typedStatement r) c s fun t _ => IsReadStatement c.isAwait t := by
  unfold typedStatement
  simp [yields_declaration, (declaresNone_expression r).yields c.isAwait]

theorem yields_classStatement (isSingle : Bool) :
    Yields (classStatement r isSingle) c s fun t _ => IsReadStatement c.isAwait t := by
  have classes (start : Nat) (s : Reading) :=
    (@yields_classDeclaration c s r start [] []).imp fun _ _ => And.right
  unfold classStatement
  simp [classes]

theorem yields_decoratedStatement (isSingle : Bool) :
    Yields (decoratedStatement r isSingle) c s fun t _ => IsReadStatement c.isAwait t := by
  unfold decoratedStatement
  simp [yields_exportStatement, yields_decoratedClass]

theorem yields_wordStatement (isSingle : Bool) (word : String) :
    Yields (wordStatement r isSingle word) c s fun t _ => IsReadStatement c.isAwait t := by
  have none {p : Parser Stmt} (h : DeclaresNone p) (s : Reading) :
      Yields p c s fun t _ => IsReadStatement c.isAwait t := h.yields c.isAwait
  have debugger (span : Span) : IsReadStatement c.isAwait (.debugger span) := .of_none rfl
  unfold wordStatement
  split <;> simp [none (declaresNone_branch r), none (declaresNone_for r),
    none (declaresNone_while r), none (declaresNone_do r), none (declaresNone_return r),
    none (@declaresNone_jump .continueTo fun _ _ => rfl), none (declaresNone_with r),
    none (@declaresNone_jump .breakTo fun _ _ => rfl), none (declaresNone_switch r),
    none (declaresNone_throw r), none (declaresNone_try r), none (declaresNone_function r _),
    none (declaresNone_let r _), none (declaresNone_variable r _ _), none declaresNone_import,
    none (declaresNone_expression r), debugger, yields_classStatement, yields_exportStatement,
    yields_typedStatement]

theorem yields_statementRule :
    Yields (statementRule r) c s fun t _ => IsReadStatement c.isAwait t := by
  have empty (span : Span) : IsReadStatement c.isAwait (.empty span) := .of_none rfl
  have kept (isPure : Bool) (t : Stmt) :
      IsReadStatement c.isAwait (if isPure then t.notePureFunction else t) ↔
        IsReadStatement c.isAwait t := by
    cases isPure
    · rfl
    · exact isReadStatement_notePureFunction
  unfold statementRule
  simp only [yields_bind, yields_peek, yields_read, yields_within, yields_pure, kept]
  refine .of_forall fun top s => ?_
  split
  · exact (declaresNone_block r).yields _
  · simp [empty]
  · exact yields_decoratedStatement r _
  · split
    · exact (declaresNone_expression r).yields _
    · exact yields_wordStatement r _ _
  · exact (declaresNone_expression r).yields _

/-- The statements of a body are among those that are read. -/
theorem mem_splitDirectives {items : List (Option (List Char) × Stmt)} {t : Stmt}
    (h : t ∈ (splitDirectives items).2) : t ∈ items.map (·.2) := by
  induction items using splitDirectives.induct with
  | case1 raw span place value rest ds body eq ih =>
      rw [splitDirectives, eq] at h
      rw [eq] at ih
      exact .tail _ (ih h)
  | case2 items other =>
      rw [splitDirectives.eq_2 items other] at h
      exact h

theorem yields_bodyUpTo (isEnd : Token → Bool) (depth : Nat) :
    Yields (bodyUpTo (rules depth) isEnd) c s fun parts _ =>
      ∀ t ∈ parts.2, IsReadStatement c.isAwait t := by
  have statement (s : Reading) :
      Yields (rules depth).statement c s fun t _ => IsReadStatement c.isAwait t := by
    cases depth with
    | zero => exact yields_failure.mpr trivial
    | succ depth =>
        rw [statement_rules]
        exact yields_statementRule _
  unfold bodyUpTo
  refine yields_bind.mpr ((yields_collect (fun item => IsReadStatement c.isAwait item.2)
    fun s => ?_).imp fun items s read => yields_pure.mpr fun t mem => ?_)
  · simp only [yields_bind, yields_peek, yields_ite, yields_pure]
    refine ⟨fun _ => by simp, fun _ => .of_forall fun _ s => ?_⟩
    split <;> simp [statement]
  · obtain ⟨item, here, rfl⟩ := List.mem_map.mp (mem_splitDirectives mem)
    exact read item here

end Parser

theorem Module.yields_topLevel (dialect : Dialect) (depth : Nat) (s : Reading) :
    Parser.Yields (topLevel (Parser.rules depth)) (surroundings dialect) s fun parts _ =>
      ∀ t ∈ parts.2, Parser.IsReadStatement (!dialect.script) t := by
  unfold topLevel
  refine Parser.yields_bind.mpr ((Parser.yields_bodyUpTo _ _).imp fun parts s read => ?_)
  simp only [Parser.yields_bind, Parser.yields_ensure, Parser.yields_pure]
  exact .of_forall fun _ s _ => .of_forall fun _ s _ => read

/-- What holds of each statement of a module. -/
theorem isReadStatement_of_read {dialect : Dialect} {text : List Char} {m : Module}
    (h : Module.read dialect text = .ok m) {t : Stmt} (mem : t ∈ m.body) :
    Parser.IsReadStatement (!dialect.script) t := by
  unfold Module.read at h
  dsimp only at h
  split at h
  · cases h
  · rename_i directives body s eq
    cases h
    exact Module.yields_topLevel dialect _ _ _ _ eq t mem

end ComponentLowering.Syntax
