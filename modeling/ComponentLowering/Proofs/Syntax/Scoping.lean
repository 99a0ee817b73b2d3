/-
# Scoping

Which names a statement at the top of a module binds in the scope of the module: those of imports, those
that declarations introduce, and those that `var` declares wherever no function, class or namespace
stands between it and the module.  What is bound that way in nested statements is also found by going
through the syntax.

Only what has a binding when the module runs is meant: ambient variables, types, enumerations and
namespaces are left out.  That a name is bound once is not asked for.
-/
import ComponentLowering.Syntax.Exported

namespace ComponentLowering.Syntax

variable {name : String}

/-! ### Patterns -/

mutual

/-- The names that the rest elements of a pattern bind. -/
def Pattern.restNames : Pattern → List String
  | .object _ properties => patternsRestNames properties
  | .property _ _ value _ => value.restNames
  | .array _ elements => patternsRestNames elements
  | .withDefault _ target _ => target.restNames
  | .rest _ target => target.boundNames true
  | .annotated target _ _ => target.restNames
  | .ident _ _ | .hole _ | .place _ => []

/-- The names that the rest elements of some patterns bind. -/
def patternsRestNames : List Pattern → List String
  | [] => []
  | p :: rest => p.restNames ++ patternsRestNames rest

end

mutual

/-- The names that a pattern binds are those bound without its rest elements, and those bound by them. -/
theorem Pattern.mem_boundNames_iff : (p : Pattern) →
    (name ∈ p.boundNames true ↔ name ∈ p.boundNames false ∨ name ∈ p.restNames)
  | .ident _ _ | .hole _ | .place _ => by simp [Pattern.boundNames, Pattern.restNames]
  | .object _ properties => by
      simpa only [Pattern.boundNames, Pattern.restNames] using mem_patternsBoundNames_iff properties
  | .property _ _ value _ => by
      simpa only [Pattern.boundNames, Pattern.restNames] using value.mem_boundNames_iff
  | .array _ elements => by
      simpa only [Pattern.boundNames, Pattern.restNames] using mem_patternsBoundNames_iff elements
  | .withDefault _ target _ => by
      simpa only [Pattern.boundNames, Pattern.restNames] using target.mem_boundNames_iff
  | .rest _ target => by simp [Pattern.boundNames, Pattern.restNames]
  | .annotated target _ _ => by
      simpa only [Pattern.boundNames, Pattern.restNames] using target.mem_boundNames_iff

theorem mem_patternsBoundNames_iff : (ps : List Pattern) →
    (name ∈ patternsBoundNames true ps ↔
      name ∈ patternsBoundNames false ps ∨ name ∈ patternsRestNames ps)
  | [] => by simp [patternsBoundNames, patternsRestNames]
  | p :: rest => by
      simp only [patternsBoundNames, patternsRestNames, List.mem_append, p.mem_boundNames_iff,
        mem_patternsBoundNames_iff rest]
      exact or_or_or_comm

end

/-! ### The scope of a module -/

/-- Whether `var` declares a name in a statement, for the function or the module around it.  Functions,
classes and namespaces are no part of this scope. -/
inductive DeclaresVar (name : String) : Stmt → Prop
  | here {span : Span} {items : List Declarator} {d : Declarator} (mem : d ∈ items)
      (bound : name ∈ d.target.boundNames true) :
      DeclaresVar name (.variableDecl span false .var items)
  | block {span : Span} {body : List Stmt} {s : Stmt} (mem : s ∈ body) (h : DeclaresVar name s) :
      DeclaresVar name (.block span body)
  | yes {span : Span} {test : Expr} {yes : Stmt} {no : Option Stmt} (h : DeclaresVar name yes) :
      DeclaresVar name (.branch span test yes no)
  | no {span : Span} {test : Expr} {yes no : Stmt} (h : DeclaresVar name no) :
      DeclaresVar name (.branch span test yes (some no))
  | init {span : Span} {init : Stmt} {test update : Option Expr} {body : Stmt}
      (h : DeclaresVar name init) : DeclaresVar name (.forLoop span (some init) test update body)
  | loop {span : Span} {init : Option Stmt} {test update : Option Expr} {body : Stmt}
      (h : DeclaresVar name body) : DeclaresVar name (.forLoop span init test update body)
  | inVariable {span : Span} {left : Stmt} {right : Expr} {body : Stmt} (h : DeclaresVar name left) :
      DeclaresVar name (.forIn span left right body)
  | inBody {span : Span} {left : Stmt} {right : Expr} {body : Stmt} (h : DeclaresVar name body) :
      DeclaresVar name (.forIn span left right body)
  | ofVariable {span : Span} {isAwait : Bool} {left : Stmt} {right : Expr} {body : Stmt}
      (h : DeclaresVar name left) : DeclaresVar name (.forOf span isAwait left right body)
  | ofBody {span : Span} {isAwait : Bool} {left : Stmt} {right : Expr} {body : Stmt}
      (h : DeclaresVar name body) : DeclaresVar name (.forOf span isAwait left right body)
  | whileBody {span : Span} {test : Expr} {body : Stmt} (h : DeclaresVar name body) :
      DeclaresVar name (.whileLoop span test body)
  | doBody {span : Span} {body : Stmt} {test : Expr} (h : DeclaresVar name body) :
      DeclaresVar name (.doWhile span body test)
  | withBody {span : Span} {object : Expr} {body : Stmt} (h : DeclaresVar name body) :
      DeclaresVar name (.withObject span object body)
  | switchOn {span : Span} {value : Expr} {cases : List Stmt} {s : Stmt} (mem : s ∈ cases)
      (h : DeclaresVar name s) : DeclaresVar name (.switchOn span value cases)
  | switchCase {span : Span} {test : Option Expr} {body : List Stmt} {s : Stmt} (mem : s ∈ body)
      (h : DeclaresVar name s) : DeclaresVar name (.switchCase span test body)
  | labeled {span : Span} {label : Ident} {body : Stmt} (h : DeclaresVar name body) :
      DeclaresVar name (.labeled span label body)
  | tryBlock {span : Span} {block : Stmt} {handler finalizer : Option Stmt}
      (h : DeclaresVar name block) : DeclaresVar name (.tryCatch span block handler finalizer)
  | handler {span : Span} {block handler : Stmt} {finalizer : Option Stmt}
      (h : DeclaresVar name handler) : DeclaresVar name (.tryCatch span block (some handler) finalizer)
  | finalizer {span : Span} {block finalizer : Stmt} {handler : Option Stmt}
      (h : DeclaresVar name finalizer) :
      DeclaresVar name (.tryCatch span block handler (some finalizer))
  | catchBody {span : Span} {param : Option Param} {body : Stmt} (h : DeclaresVar name body) :
      DeclaresVar name (.catchClause span param body)

/-- Whether a statement is a declaration of a function of a name, with or without labels in front. -/
inductive DeclaresFunction (name : String) : Stmt → Prop
  | function {fn : Func} {n : Ident} (named : fn.name = some n) (same : n.name = name) :
      DeclaresFunction name (.function fn)
  | labeled {span : Span} {label : Ident} {body : Stmt} (h : DeclaresFunction name body) :
      DeclaresFunction name (.labeled span label body)

/-- Whether a declaration introduces a name, which is bound where the declaration stands. -/
inductive Introduces (name : String) : Stmt → Prop
  | bindings {span : Span} {kind : VariableKind} {items : List Declarator} {d : Declarator}
      (mem : d ∈ items) (bound : name ∈ d.target.boundNames true) :
      Introduces name (.variableDecl span false kind items)
  | function {fn : Func} {n : Ident} (named : fn.name = some n) (same : n.name = name) :
      Introduces name (.function fn)
  | classDef {decl : ClassDef} {n : Ident} (named : decl.name = some n) (same : n.name = name) :
      Introduces name (.classDecl decl)

/-- Whether a statement at the top of a module binds a name in the scope of the module. -/
inductive Binds (name : String) : Stmt → Prop
  | imported {d : ImportDecl} {s : ImportSpecifier} (mem : s ∈ d.specifiers.getD [])
      (same : s.binding.name = name) : Binds name (.importDecl d)
  | declared {s : Stmt} (h : Introduces name s) : Binds name s
  | exported {span : Span} {s : Stmt} (h : Introduces name s) : Binds name (.exportDecl span s)
  | defaultFunction {span : Span} {fn : Func} (h : Introduces name (.function fn)) :
      Binds name (.exportDefault span (.function fn))
  | defaultClass {span : Span} {decl : ClassDef} (h : Introduces name (.classDecl decl)) :
      Binds name (.exportDefault span (.classDecl decl))
  | labeled {span : Span} {label : Ident} {s : Stmt} (h : DeclaresFunction name s) :
      Binds name (.labeled span label s)
  | nested {s : Stmt} (h : DeclaresVar name s) : Binds name s

/-- Whether the scope of a module with the given statements binds a name. -/
def IsInScope (body : List Stmt) (name : String) : Prop := ∃ s ∈ body, Binds name s

/-! ### Names of nested variables -/

mutual

/-- The names that `var` declares in a statement. -/
def Stmt.varNames : Stmt → List String
  | .variableDecl _ false .var items => items.flatMap fun d => d.target.boundNames true
  | .block _ body | .switchOn _ _ body | .switchCase _ _ body => varNamesOf body
  | .branch _ _ yes no => yes.varNames ++ varNamesOf? no
  | .forLoop _ init _ _ body => varNamesOf? init ++ body.varNames
  | .forIn _ left _ body | .forOf _ _ left _ body => left.varNames ++ body.varNames
  | .whileLoop _ _ body | .doWhile _ body _ | .withObject _ _ body | .labeled _ _ body
  | .catchClause _ _ body => body.varNames
  | .tryCatch _ block handler finalizer =>
    block.varNames ++ varNamesOf? handler ++ varNamesOf? finalizer
  | _ => []

/-- The names that `var` declares in some statements. -/
def varNamesOf : List Stmt → List String
  | [] => []
  | s :: rest => s.varNames ++ varNamesOf rest

/-- The names that `var` declares in a statement that may be missing. -/
def varNamesOf? : Option Stmt → List String
  | none => []
  | some s => s.varNames

end

theorem mem_varNamesOf {s : Stmt} {body : List Stmt} (mem : s ∈ body) (h : name ∈ s.varNames) :
    name ∈ varNamesOf body := by
  induction body with
  | nil => cases mem
  | cons t rest ih =>
      rw [varNamesOf, List.mem_append]
      obtain rfl | later := List.mem_cons.mp mem
      · exact .inl h
      · exact .inr (ih later)

/-- What `var` declares in a statement is found by going through it. -/
theorem DeclaresVar.mem_varNames {s : Stmt} (h : DeclaresVar name s) : name ∈ s.varNames := by
  induction h with
  | here mem bound =>
      unfold Stmt.varNames
      exact List.mem_flatMap.mpr ⟨_, mem, bound⟩
  | block mem _ ih | switchOn mem _ ih | switchCase mem _ ih =>
      unfold Stmt.varNames
      exact mem_varNamesOf mem ih
  | yes _ ih | init _ ih | inVariable _ ih | ofVariable _ ih =>
      unfold Stmt.varNames
      exact List.mem_append_left _ ih
  | no _ ih | loop _ ih | inBody _ ih | ofBody _ ih | finalizer _ ih =>
      unfold Stmt.varNames
      exact List.mem_append_right _ ih
  | whileBody _ ih | doBody _ ih | withBody _ ih | labeled _ ih | catchBody _ ih =>
      unfold Stmt.varNames
      exact ih
  | tryBlock _ ih =>
      unfold Stmt.varNames
      exact List.mem_append_left _ (List.mem_append_left _ ih)
  | handler _ ih =>
      unfold Stmt.varNames
      exact List.mem_append_left _ (List.mem_append_right _ ih)

mutual

/-- What is found by going through a statement is declared in it. -/
theorem declaresVar_of_mem : (s : Stmt) → name ∈ s.varNames → DeclaresVar name s
  | .variableDecl _ false .var items, h => by
      unfold Stmt.varNames at h
      obtain ⟨d, mem, bound⟩ := List.mem_flatMap.mp h
      exact .here mem bound
  | .block _ body, h => by
      unfold Stmt.varNames at h
      obtain ⟨s, mem, declares⟩ := declaresVar_of_mem_list body h
      exact .block mem declares
  | .switchOn _ _ cases, h => by
      unfold Stmt.varNames at h
      obtain ⟨s, mem, declares⟩ := declaresVar_of_mem_list cases h
      exact .switchOn mem declares
  | .switchCase _ _ body, h => by
      unfold Stmt.varNames at h
      obtain ⟨s, mem, declares⟩ := declaresVar_of_mem_list body h
      exact .switchCase mem declares
  | .branch _ _ yes no, h => by
      unfold Stmt.varNames at h
      obtain first | second := List.mem_append.mp h
      · exact .yes (declaresVar_of_mem yes first)
      · obtain ⟨s, rfl, declares⟩ := declaresVar_of_mem_option no second
        exact .no declares
  | .forLoop _ init _ _ body, h => by
      unfold Stmt.varNames at h
      obtain first | second := List.mem_append.mp h
      · obtain ⟨s, rfl, declares⟩ := declaresVar_of_mem_option init first
        exact .init declares
      · exact .loop (declaresVar_of_mem body second)
  | .forIn _ left _ body, h => by
      unfold Stmt.varNames at h
      obtain first | second := List.mem_append.mp h
      · exact .inVariable (declaresVar_of_mem left first)
      · exact .inBody (declaresVar_of_mem body second)
  | .forOf _ _ left _ body, h => by
      unfold Stmt.varNames at h
      obtain first | second := List.mem_append.mp h
      · exact .ofVariable (declaresVar_of_mem left first)
      · exact .ofBody (declaresVar_of_mem body second)
  | .whileLoop _ _ body, h => .whileBody (declaresVar_of_mem body (by unfold Stmt.varNames at h; exact h))
  | .doWhile _ body _, h => .doBody (declaresVar_of_mem body (by unfold Stmt.varNames at h; exact h))
  | .withObject _ _ body, h =>
      .withBody (declaresVar_of_mem body (by unfold Stmt.varNames at h; exact h))
  | .labeled _ _ body, h => .labeled (declaresVar_of_mem body (by unfold Stmt.varNames at h; exact h))
  | .catchClause _ _ body, h =>
      .catchBody (declaresVar_of_mem body (by unfold Stmt.varNames at h; exact h))
  | .tryCatch _ block handler finalizer, h => by
      unfold Stmt.varNames at h
      obtain either | last := List.mem_append.mp h
      · obtain first | second := List.mem_append.mp either
        · exact .tryBlock (declaresVar_of_mem block first)
        · obtain ⟨s, rfl, declares⟩ := declaresVar_of_mem_option handler second
          exact .handler declares
      · obtain ⟨s, rfl, declares⟩ := declaresVar_of_mem_option finalizer last
        exact .finalizer declares
  | .variableDecl _ true _ _, h | .variableDecl _ false .let _, h
  | .variableDecl _ false .const _, h | .variableDecl _ false .using _, h
  | .variableDecl _ false .awaitUsing _, h | .expression _ _, h | .empty _, h | .assignee _, h
  | .continueTo _ _, h | .breakTo _ _, h | .returnValue _ _, h | .throwValue _ _, h
  | .debugger _, h | .function _, h | .classDecl _, h | .importDecl _, h | .exportDecl _ _, h
  | .exportDefault _ _, h | .exportDefaultValue _ _, h | .exportList _, h | .exportAll _, h
  | .exportAssign _ _, h | .exportGlobal _ _, h | .importAlias _ _ _, h | .typeAlias _ _ _ _ _, h
  | .interface _ _ _ _ _, h | .enumeration _ _ _ _ _, h | .enumMember _ _ _, h
  | .moduleBlock _ _ _ _ _ _, h => by
      unfold Stmt.varNames at h
      cases h

theorem declaresVar_of_mem_list : (body : List Stmt) → name ∈ varNamesOf body →
    ∃ s ∈ body, DeclaresVar name s
  | [], h => by cases h
  | s :: rest, h => by
      unfold varNamesOf at h
      obtain here | later := List.mem_append.mp h
      · exact ⟨s, List.mem_cons_self, declaresVar_of_mem s here⟩
      · obtain ⟨t, mem, declares⟩ := declaresVar_of_mem_list rest later
        exact ⟨t, List.mem_cons_of_mem _ mem, declares⟩

theorem declaresVar_of_mem_option : (s? : Option Stmt) → name ∈ varNamesOf? s? →
    ∃ s, s? = some s ∧ DeclaresVar name s
  | none, h => by cases h
  | some s, h => ⟨s, rfl, declaresVar_of_mem s h⟩

end

theorem mem_varNames_iff {s : Stmt} : name ∈ s.varNames ↔ DeclaresVar name s :=
  ⟨declaresVar_of_mem s, DeclaresVar.mem_varNames⟩

/-! ### Names of functions -/

/-- The name of the function that a statement declares, with or without labels in front. -/
def Stmt.functionNames : Stmt → List String
  | .function fn => (fn.name.map (·.name)).toList
  | .labeled _ _ body => body.functionNames
  | _ => []

theorem mem_name_iff {n? : Option Ident} :
    name ∈ (n?.map (·.name)).toList ↔ ∃ n, n? = some n ∧ n.name = name := by
  rw [Option.mem_toList, Option.map_eq_some_iff]

theorem mem_functionNames_iff {s : Stmt} : name ∈ s.functionNames ↔ DeclaresFunction name s := by
  fun_induction Stmt.functionNames s with
  | case1 fn =>
      rw [mem_name_iff]
      constructor
      · rintro ⟨n, named, same⟩
        exact .function named same
      · rintro ⟨named, same⟩
        exact ⟨_, named, same⟩
  | case2 span label body ih =>
      rw [ih]
      exact ⟨.labeled, fun | .labeled h => h⟩
  | case3 s noFunction noLabel =>
      refine iff_of_false List.not_mem_nil fun h => ?_
      cases h with
      | function named same => exact noFunction _ rfl
      | labeled h => exact noLabel _ _ _ rfl

end ComponentLowering.Syntax
