/-
# Dropped imports

Pruning drops the imports of decorators that no class of the module carries.  It asks for the
decorators of the classes that statements declare and of their members.  Every other use of a name is
left out of account, so a dropped name is still in use exactly if it occurs elsewhere.
-/
import ComponentLowering.Proofs.Lowering.Layout
import ComponentLowering.Proofs.Syntax.NamesUsed

namespace ComponentLowering.Lowering

open ComponentLowering.Component ComponentLowering.Report ComponentLowering.Settings
open ComponentLowering.Style ComponentLowering.Syntax

variable {body : List Stmt} {corePath name : String}

/-! ### Uses beyond the names of decorators -/

/-- The names that a decorator refers to besides its own. -/
def argumentUses (d : Decorator) : List String :=
  match d.expr with
  | .call _ (.ident _ _) typeArgs args _ _ => usesOfTypes typeArgs ++ usesOfExprs args
  | .ident _ _ => []
  | e => e.uses

theorem uses_decorator (d : Decorator) :
    d.uses = (decoratorName d).toList ++ argumentUses d := by
  obtain ⟨span, expr⟩ := d
  cases expr with
  | call span callee typeArgs args optional isPure => cases callee <;> rfl
  | _ => rfl

/-- The names that a member refers to behind its decorators. -/
def usesInside : Member → List String
  | .method m => m.key.uses ++ m.fn.uses
  | .field f | .accessor f => f.key.uses ++ usesOfType? f.type ++ usesOfExpr? f.value
  | .staticBlock _ body => usesOfStmts body
  | .indexSignature _ _ _ key result => key.uses ++ result.uses

theorem uses_member (m : Member) :
    m.uses = (memberDecorators m).flatMap Decorator.uses ++ usesInside m := by
  cases m with
  | method m =>
      cases m
      unfold Member.uses Method.uses
      rw [usesOfDecorators_eq]
      rfl
  | field f =>
      cases f
      unfold Member.uses Field.uses
      rw [usesOfDecorators_eq]
      rfl
  | accessor f =>
      cases f
      unfold Member.uses Field.uses
      rw [usesOfDecorators_eq]
      rfl
  | staticBlock span body =>
      unfold Member.uses
      rfl
  | indexSignature span isReadonly binding key result =>
      unfold Member.uses
      rfl

/-- The names that a class refers to besides those of its decorators and of the decorators of its
members. -/
def usesBeyondNames (decl : ClassDef) : List String :=
  (decl.decorators ++ decl.members.flatMap memberDecorators).flatMap argumentUses ++
    (usesOfTypes decl.typeParams ++ usesOfExpr? decl.superClass
      ++ usesOfTypes decl.superTypeArgs ++ usesOfTypes decl.interfaces) ++
    decl.members.flatMap usesInside

theorem mem_uses_decorators {decorators : List Decorator} :
    name ∈ decorators.flatMap Decorator.uses ↔
      name ∈ decorators.filterMap decoratorName ∨ name ∈ decorators.flatMap argumentUses := by
  simp only [List.mem_flatMap, List.mem_filterMap, uses_decorator, List.mem_append,
    Option.mem_toList, and_or_left, exists_or]

theorem mem_uses_members {members : List Member} :
    name ∈ members.flatMap Member.uses ↔
      name ∈ (members.flatMap memberDecorators).flatMap Decorator.uses ∨
        name ∈ members.flatMap usesInside := by
  rw [List.flatMap_assoc]
  simp only [List.mem_flatMap, uses_member, List.mem_append, and_or_left, exists_or]

/-- A class refers to the names of the decorators on it, and to names beyond these. -/
theorem mem_uses_class {decl : ClassDef} :
    name ∈ decl.uses ↔ name ∈ classDecoratorNames decl ∨ name ∈ usesBeyondNames decl := by
  cases decl
  unfold ClassDef.uses classDecoratorNames usesBeyondNames
  dsimp only
  rw [usesOfDecorators_eq, usesOfMembers_eq]
  simp only [List.mem_append, mem_uses_members, List.filterMap_append, List.flatMap_append,
    mem_uses_decorators]
  tauto

/-- The names that a statement refers to.  If it declares a class, the names of the decorators on the
class and on its members are left out. -/
def usesBeyond (s : Stmt) : List String :=
  match class? s with
  | some decl => usesBeyondNames decl
  | none => s.uses

theorem uses_of_class? {s : Stmt} {decl : ClassDef} (h : class? s = some decl) :
    s.uses = decl.uses := by
  unfold class? at h
  split at h
  · cases h
    rfl
  · cases h
    rfl
  · cases h
    rfl
  · cases h

theorem mem_uses_stmts :
    name ∈ usesOfStmts body ↔ name ∈ decoratorsInUse body ∨ name ∈ body.flatMap usesBeyond := by
  rw [usesOfStmts_eq]
  unfold decoratorsInUse
  induction body with
  | nil => simp
  | cons s rest ih =>
      rw [List.flatMap_cons, List.flatMap_cons, List.mem_append, List.mem_append, ih]
      cases cls : class? s with
      | none =>
          have beyond : usesBeyond s = s.uses := by simp [usesBeyond, cls]
          rw [List.filterMap_cons_none cls, beyond]
          tauto
      | some decl =>
          have beyond : usesBeyond s = usesBeyondNames decl := by simp [usesBeyond, cls]
          rw [List.filterMap_cons_some cls, List.flatMap_cons, List.mem_append, beyond,
            uses_of_class? cls, mem_uses_class]
          tauto

/-! ### Dropped specifiers -/

/-- The specifiers of an import declaration. -/
def specifiersOf : Stmt → List ImportSpecifier
  | .importDecl d => d.specifiers.getD []
  | _ => []

/-- The specifiers of a statement that pruning drops. -/
def droppedFrom (corePath : String) (inUse : List String) (s : Stmt) : List ImportSpecifier :=
  let kept := (pruneStatement corePath inUse s).1.flatMap specifiersOf
  (specifiersOf s).filter fun specifier => !kept.contains specifier

/-- The specifiers of some statements that pruning drops. -/
def dropped (corePath : String) (body : List Stmt) : List ImportSpecifier :=
  body.flatMap (droppedFrom corePath (decoratorsInUse body))

/-- Whether an import asks for the core module. -/
def isOfCore (corePath : String) (d : ImportDecl) : Bool :=
  d.source.value.text == corePath || d.source.value.text == defaultCorePath

theorem filter_not_mem_filter {α : Type} [BEq α] [LawfulBEq α] (l : List α) (p : α → Bool) :
    (l.filter fun a => !(l.filter fun b => !p b).contains a) = l.filter p := by
  apply List.filter_congr
  intro a mem
  cases h : p a <;> simp [mem, h]

theorem length_sub_filter {α : Type} (l : List α) (p : α → Bool) :
    l.length - (l.filter fun a => !p a).length = (l.filter p).length := by
  have both := l.length_eq_length_filter_add p
  omega

/-- An import of another module than the core module stays as it is. -/
theorem pruneImport_of_other {inUse : List String} {d : ImportDecl}
    (other : isOfCore corePath d = false) : pruneImport corePath inUse d = (some d, 0) := by
  simp only [isOfCore, Bool.or_eq_false_iff] at other
  unfold pruneImport
  dsimp only
  rw [if_pos (by simp [bne, other])]

/-- An import of the core module loses its stale specifiers. -/
theorem pruneImport_of_core {inUse : List String} {d : ImportDecl}
    (core : isOfCore corePath d = true) :
    ((pruneImport corePath inUse d).1.toList.map Stmt.importDecl).flatMap specifiersOf =
        (d.specifiers.getD []).filter (fun s => !isStale inUse s) ∧
      (pruneImport corePath inUse d).2 = ((d.specifiers.getD []).filter (isStale inUse)).length := by
  unfold pruneImport
  dsimp only
  rw [isOfCore, Bool.or_eq_true, beq_iff_eq, beq_iff_eq] at core
  rw [if_neg (by simpa [imp_iff_not_or] using core)]
  split
  · rename_i eq
    simp [specifiersOf, eq]
  · rename_i eq
    simp [specifiersOf, eq]
  · rename_i specifiers _ eq
    rw [eq, Option.getD_some]
    split
    · rename_i empty
      exact ⟨(List.isEmpty_iff.mp empty).symm, length_sub_filter _ _⟩
    · exact ⟨List.flatMap_singleton _ _, length_sub_filter _ _⟩

/-- Pruning drops the stale specifiers of imports of the core module. -/
theorem droppedFrom_importDecl (inUse : List String) (d : ImportDecl) :
    droppedFrom corePath inUse (.importDecl d) =
      if isOfCore corePath d then (d.specifiers.getD []).filter (isStale inUse) else [] := by
  unfold droppedFrom pruneStatement
  dsimp only
  cases core : isOfCore corePath d with
  | true =>
      rw [(pruneImport_of_core core).1, if_pos rfl]
      exact filter_not_mem_filter _ _
  | false =>
      rw [pruneImport_of_other core]
      simp [specifiersOf]

/-- No class and no member of a class carries a decorator whose import was dropped. -/
theorem not_mem_decoratorsInUse_of_dropped {specifier : ImportSpecifier}
    (h : specifier ∈ dropped corePath body) :
    specifier.binding.name ∉ decoratorsInUse body := by
  unfold dropped at h
  obtain ⟨s, _, gone⟩ := List.mem_flatMap.mp h
  cases s with
  | importDecl d =>
      rw [droppedFrom_importDecl] at gone
      split at gone
      · have stale := (List.mem_filter.mp gone).2
        unfold isStale at stale
        split at stale
        · simp only [Bool.and_eq_true, Bool.not_eq_true', List.contains_eq_mem,
            decide_eq_false_iff_not] at stale
          exact stale.2
        · cases stale
        · cases stale
      · cases gone
  | _ => cases gone

/-- What is collected from other statements than imports is not affected by pruning. -/
theorem flatMap_pruneImports {α : Type} {f : Stmt → List α} (h : ∀ d, f (.importDecl d) = []) :
    (pruneImports corePath body).1.flatMap f = body.flatMap f := by
  unfold pruneImports
  dsimp only
  rw [List.flatMap_map, List.flatMap_assoc]
  congr 1
  funext s
  cases s with
  | importDecl d =>
      unfold pruneStatement
      cases (pruneImport corePath (decoratorsInUse body) d).1 <;> simp [h]
  | _ => exact List.flatMap_singleton f _

/-- Only imports are pruned. -/
theorem filter_pruneImports (corePath : String) (body : List Stmt) {p : Stmt → Bool}
    (noImport : ∀ d, p (.importDecl d) = false) :
    (pruneImports corePath body).1.filter p = body.filter p := by
  rw [← List.filterMap_eq_filter, List.filterMap_eq_flatMap_toList, List.filterMap_eq_flatMap_toList]
  exact flatMap_pruneImports fun d => by simp [Option.guard, noImport]

theorem classes_eq (body : List Stmt) : classes body = body.flatMap fun s => (class? s).toList :=
  List.filterMap_eq_flatMap_toList _ _

/-- Where the imports stand only matters for the order. -/
theorem flatMap_withImports_perm {α : Type} (convention : Convention) (core styles body : List Stmt)
    (f : Stmt → List α) :
    ((withImports convention core styles body).flatMap f).Perm
      (core.flatMap f ++ styles.flatMap f ++ body.flatMap f) := by
  cases convention with
  | esm =>
      have split : body.flatMap f = (body.take (afterLastImport body)).flatMap f ++
          (body.drop (afterLastImport body)).flatMap f := by
        rw [← List.flatMap_append, List.take_append_drop]
      unfold withImports
      dsimp only
      rw [List.flatMap_append, List.flatMap_append, List.flatMap_append, split,
        ← List.append_assoc (core.flatMap f ++ styles.flatMap f)]
      refine List.Perm.append_right _ ?_
      rw [List.append_assoc, List.append_assoc]
      exact List.Perm.append_left _ List.perm_append_comm
  | cjs =>
      unfold withImports
      dsimp only
      rw [List.flatMap_append, List.flatMap_append]
      exact List.Perm.append_right _ List.perm_append_comm

theorem mem_flatMap_withImports {α : Type} {convention : Convention} {core styles : List Stmt}
    {f : Stmt → List α} {a : α} :
    a ∈ (withImports convention core styles body).flatMap f ↔
      a ∈ core.flatMap f ∨ a ∈ styles.flatMap f ∨ a ∈ body.flatMap f := by
  rw [(flatMap_withImports_perm convention core styles body f).mem_iff, List.mem_append,
    List.mem_append, or_assoc]

theorem mem_withImports {convention : Convention} {core styles : List Stmt} {t : Stmt} :
    t ∈ withImports convention core styles body ↔ t ∈ core ∨ t ∈ styles ∨ t ∈ body := by
  have mem := @mem_flatMap_withImports body Stmt convention core styles (fun s => [s]) t
  simpa using mem

/-! ### Made bindings -/

theorem class?_coreBinding (convention : Convention) (functions : List CoreFunction) :
    class? (coreBinding convention corePath functions) = none := by
  cases convention <;> rfl

theorem class?_sheetImport (convention : Convention) (path : String) :
    class? (sheetImport convention name path) = none := by
  cases convention <;> rfl

/-- A constant whose value is a call of `require` refers to `require`, if its pattern refers to
nothing. -/
theorem uses_madeConstant {target : Pattern} {path : String} (h : target.uses false = []) :
    (Parser.madeConstant target (requireCall path)).uses = ["require"] := by
  show (target.uses false ++ [] ++ ["require"]) ++ [] = ["require"]
  rw [h, List.nil_append, List.nil_append, List.append_nil]

theorem uses_coreBinding (convention : Convention) (functions : List CoreFunction) :
    (coreBinding convention corePath functions).uses =
      if convention = .cjs then ["require"] else [] := by
  cases convention with
  | esm => rfl
  | cjs =>
      refine uses_madeConstant ?_
      have properties (bindings : List (String × String)) :
          usesOfPatterns false (bindings.map Parser.madeProperty) = [] := by
        induction bindings with
        | nil => rfl
        | cons b rest ih =>
            rw [List.map_cons]
            unfold usesOfPatterns
            rw [ih]
            rfl
      have eq := properties (functions.map (·.names))
      rw [List.map_map] at eq
      unfold Pattern.uses
      exact eq

theorem uses_sheetImport (convention : Convention) (path : String) :
    (sheetImport convention name path).uses =
      if convention = .cjs then ["require"] else [] := by
  cases convention with
  | esm => rfl
  | cjs => exact uses_madeConstant rfl

section

variable {convention : Convention} {functions : List CoreFunction} {sheets : List Sheet}

/-- The classes are those from before pruning, whatever is imported. -/
theorem mem_classes_withImports {decl : ClassDef} :
    decl ∈ classes (withImports convention [coreBinding convention corePath functions]
        (sheets.map fun s => sheetImport convention s.name s.path)
        (pruneImports corePath body).1) ↔
      decl ∈ classes body := by
  simp only [classes_eq]
  rw [mem_flatMap_withImports, flatMap_pruneImports fun _ => rfl, List.flatMap_singleton,
    class?_coreBinding]
  have made (s : Sheet) : class? (sheetImport convention s.name s.path) = none :=
    class?_sheetImport convention s.path
  simp [List.flatMap_map, made]

theorem mem_decoratorsInUse_withImports :
    name ∈ decoratorsInUse (withImports convention [coreBinding convention corePath functions]
        (sheets.map fun s => sheetImport convention s.name s.path)
        (pruneImports corePath body).1) ↔
      name ∈ decoratorsInUse body := by
  show name ∈ (classes _).flatMap classDecoratorNames ↔ name ∈ (classes _).flatMap _
  simp only [List.mem_flatMap, mem_classes_withImports]

/-- The names that are used are those from before pruning, and `require` where modules are
required. -/
theorem mem_uses_withImports :
    name ∈ usesOfStmts (withImports convention [coreBinding convention corePath functions]
        (sheets.map fun s => sheetImport convention s.name s.path)
        (pruneImports corePath body).1) ↔
      convention = .cjs ∧ name = "require" ∨ name ∈ usesOfStmts body := by
  simp only [usesOfStmts_eq]
  rw [mem_flatMap_withImports, flatMap_pruneImports fun _ => rfl,
    List.flatMap_singleton, uses_coreBinding, List.flatMap_map]
  simp only [uses_sheetImport]
  cases convention with
  | esm => simp
  | cjs =>
      simp only [List.mem_flatMap, ↓reduceIte, List.mem_singleton, true_and]
      tauto

end

/-! ### Lowered modules -/

variable {options : Options} {m out : Module} {report : LoweringReport} {log log' : Log}

/-- Names whose imports are dropped when a module is lowered.  No class of the lowered module and no
member of one carries a decorator of such a name.  The lowered module still refers to the name if and
only if the lowered statements do so elsewhere: in an expression, a type or an export list, in an
argument of a decorator, or in a decorator of a parameter or of a class that no statement of the
module declares. -/
theorem lowerModule_uses_dropped
    (run : (lowerModule options m).run.run log = (.ok (report, out), log'))
    (nonempty : report.components ≠ []) :
    ∃ lowered, Gives (lowerStatements m.source options m.body (initialState m.body)) lowered ∧
      ∀ specifier ∈ dropped options.corePath lowered.statements,
        specifier.binding.name ∉ decoratorsInUse out.body ∧
          (specifier.binding.name ∈ usesOfStmts out.body ↔
            specifier.binding.name ∈ lowered.statements.flatMap usesBeyond ∨
              options.convention = .cjs ∧ specifier.binding.name = "require") := by
  obtain ⟨lowered, pieces, lowers, _, statements, body⟩ := lowerModule_body ⟨log, log', run⟩ nonempty
  refine ⟨lowered, lowers, fun specifier gone => ?_⟩
  have unused := not_mem_decoratorsInUse_of_dropped gone
  rw [statements] at unused ⊢
  rw [body, mem_decoratorsInUse_withImports, mem_uses_withImports, mem_uses_stmts]
  refine ⟨unused, ?_⟩
  tauto

/-! ### A dropped name that is exported -/

/-- A module that exports the component decorator besides using it. -/
def exporting : String :=
  "import \x7b Component \x7d from '@stencil/core';\n@Component(\x7b tag: 'a-a' \x7d)\nclass A \x7b\x7d\n"
    ++ "export \x7b Component \x7d;\n"

/-- Whether a component of a module is lowered, and a name that is dropped on the way is still used and
no longer imported. -/
def leavesBehind (options : Options) (m : Module) : Bool :=
  match (lowerModule options m).run.run [],
    (lowerStatements m.source options m.body (initialState m.body)).run.run [] with
  | (.ok (report, out), _), (.ok lowered, _) =>
    !report.components.isEmpty &&
      (dropped options.corePath lowered.statements).any fun specifier =>
        (usesOfStmts out.body).contains specifier.binding.name &&
          (out.body.flatMap specifiersOf).all fun left =>
            left.binding.name != specifier.binding.name
  | _, _ => false

theorem of_leavesBehind (h : leavesBehind options m = true) :
    ∃ report out log lowered,
      (lowerModule options m).run.run [] = (.ok (report, out), log) ∧ report.components ≠ [] ∧
      Gives (lowerStatements m.source options m.body (initialState m.body)) lowered ∧
      ∃ specifier ∈ dropped options.corePath lowered.statements,
        specifier.binding.name ∈ usesOfStmts out.body ∧
          ∀ left ∈ out.body.flatMap specifiersOf, left.binding.name ≠ specifier.binding.name := by
  unfold leavesBehind at h
  split at h
  · rename_i report out log lowered log' run lowers
    rw [Bool.and_eq_true, List.any_eq_true] at h
    obtain ⟨nonempty, specifier, gone, used⟩ := h
    refine ⟨report, out, log, lowered, run, by simpa using nonempty, ⟨[], log', lowers⟩, specifier,
      gone, ?_⟩
    simp only [Bool.and_eq_true, List.contains_eq_mem, decide_eq_true_eq, List.all_eq_true,
      bne_iff_ne] at used
    exact used
  · cases h

theorem exporting_read :
    ∃ m, Module.read (.ofPath "a.ts") exporting.toList = .ok m ∧ leavesBehind defaults m = true :=
  exists_of_read (by decide +kernel)

/-- The exported name is used in the lowered module, where nothing imports it. -/
theorem exporting_leavesBehind :
    ∃ m report out log lowered,
      Module.read (.ofPath "a.ts") exporting.toList = .ok m ∧
      (lowerModule defaults m).run.run [] = (.ok (report, out), log) ∧ report.components ≠ [] ∧
      Gives (lowerStatements m.source defaults m.body (initialState m.body)) lowered ∧
      ∃ specifier ∈ dropped defaults.corePath lowered.statements,
        specifier.binding.name ∈ usesOfStmts out.body ∧
          ∀ left ∈ out.body.flatMap specifiersOf, left.binding.name ≠ specifier.binding.name := by
  obtain ⟨m, read, left⟩ := exporting_read
  obtain ⟨report, out, log, lowered, rest⟩ := of_leavesBehind left
  exact ⟨m, report, out, log, lowered, read, rest⟩

/-- The module is lowered, so what is known of dropped names holds of it. -/
theorem exporting_uses_dropped :
    ∃ m report out log,
      Module.read (.ofPath "a.ts") exporting.toList = .ok m ∧
      (lowerModule defaults m).run.run [] = (.ok (report, out), log) ∧ report.components ≠ [] ∧
      ∃ lowered,
        Gives (lowerStatements m.source defaults m.body (initialState m.body)) lowered ∧
        ∀ specifier ∈ dropped defaults.corePath lowered.statements,
          specifier.binding.name ∉ decoratorsInUse out.body ∧
            (specifier.binding.name ∈ usesOfStmts out.body ↔
              specifier.binding.name ∈ lowered.statements.flatMap usesBeyond ∨
                defaults.convention = .cjs ∧ specifier.binding.name = "require") := by
  obtain ⟨m, read, left⟩ := exporting_read
  obtain ⟨report, out, log, _, run, nonempty, _⟩ := of_leavesBehind left
  exact ⟨m, report, out, log, read, run, nonempty, lowerModule_uses_dropped run nonempty⟩

end ComponentLowering.Lowering
