/-
# Imports that are kept

An import of a decorator is dropped unless a class or a member of one still carries the decorator.  The
classes are those that statements declare, and where a component becomes the value of a constant no
statement declares it any more.  So the decorators that are left on such a component do not hold their
imports, and which imports are kept depends on the convention.
-/
import ComponentLowering.Proofs.Lowering.DroppedImports
import ComponentLowering.Proofs.Lowering.LoweredClasses

namespace ComponentLowering.Lowering

open ComponentLowering.Component ComponentLowering.Report ComponentLowering.Settings
open ComponentLowering.Style ComponentLowering.Syntax

variable {source : List Char} {options options' : Options} {corePath : String} {body : List Stmt}

/-! ### Imports of a module -/

/-- The import declaration that a statement is. -/
def importDecl? : Stmt → Option ImportDecl
  | .importDecl d => some d
  | _ => none

/-- The import declarations among some statements. -/
def imports (body : List Stmt) : List ImportDecl := body.filterMap importDecl?

theorem imports_append (body more : List Stmt) : imports (body ++ more) = imports body ++ imports more :=
  List.filterMap_append

theorem importDecl?_eq_none {s : Stmt} (h : isImport s = false) : importDecl? s = none := by
  cases s <;> first | rfl | cases h

/-- Behind the last import there is none. -/
theorem imports_drop_afterLastImport (body : List Stmt) :
    imports (body.drop (afterLastImport body)) = [] :=
  List.filterMap_eq_nil_iff.mpr fun s mem =>
    importDecl?_eq_none ((isBehindLastImport_afterLastImport body).others s mem)

/-- The imports that are added stand around those that are there. -/
theorem imports_withImports (convention : Convention) (core : Stmt) (sheets : List Sheet)
    (corePath : String) (functions : List CoreFunction) (body : List Stmt)
    (binds : core = coreBinding convention corePath functions) :
    imports (withImports convention [core]
        (sheets.map fun s => sheetImport convention s.name s.path) body) =
      imports [core] ++ imports body ++
        imports (sheets.map fun s => sheetImport convention s.name s.path) := by
  cases convention with
  | esm =>
      have whole := imports_append (body.take (afterLastImport body)) (body.drop (afterLastImport body))
      rw [List.take_append_drop, imports_drop_afterLastImport, List.append_nil] at whole
      unfold withImports
      dsimp only
      rw [imports_append, imports_append, imports_append, imports_drop_afterLastImport,
        List.append_nil, whole]
  | cjs =>
      have required : imports (sheets.map fun s => sheetImport .cjs s.name s.path) = [] :=
        List.filterMap_eq_nil_iff.mpr fun s mem => by
          obtain ⟨_, -, rfl⟩ := List.mem_map.mp mem
          rfl
      have bound : imports [core] = [] := by
        rw [binds]
        rfl
      unfold withImports
      dsimp only
      rw [imports_append, imports_append, required, bound, List.append_nil, List.append_nil]

/-! ### Pruning by names in use -/

/-- Whether an import specifier is for a lowered decorator. -/
def isDecoratorSpecifier : ImportSpecifier → Bool
  | .named _ imported _ _ => loweredDecorators.contains imported.text
  | .default _ _ | .allNames _ _ => false

/-- The specifiers that some imports of the core module have. -/
def coreSpecifiers (corePath : String) (decls : List ImportDecl) : List ImportSpecifier :=
  (decls.filter (isOfCore corePath)).flatMap fun d => d.specifiers.getD []

/-- What is left of some imports where some names are in use. -/
def prunedImports (corePath : String) (inUse : List String) (decls : List ImportDecl) :
    List ImportDecl :=
  decls.filterMap fun d => (pruneImport corePath inUse d).1

theorem isStale_eq (inUse : List String) (s : ImportSpecifier) :
    isStale inUse s = (isDecoratorSpecifier s && !inUse.contains s.binding.name) := by
  cases s <;> rfl

/-- A specifier is stale for some names exactly if it is for others, if it is no decorator's or its name
is among both or neither. -/
theorem isStale_congr {inUse inUse' : List String} {s : ImportSpecifier}
    (h : isDecoratorSpecifier s = true → (s.binding.name ∈ inUse ↔ s.binding.name ∈ inUse')) :
    isStale inUse s = isStale inUse' s := by
  rw [isStale_eq, isStale_eq]
  cases decorator : isDecoratorSpecifier s with
  | false => rfl
  | true => simp [List.contains_eq_mem, h decorator]

theorem pruneImport_congr {inUse inUse' : List String} {d : ImportDecl}
    (h : isOfCore corePath d = true → ∀ s ∈ d.specifiers.getD [], isStale inUse s = isStale inUse' s) :
    (pruneImport corePath inUse d).1 = (pruneImport corePath inUse' d).1 := by
  cases core : isOfCore corePath d with
  | false => rw [pruneImport_of_other core, pruneImport_of_other core]
  | true =>
      have same := h core
      unfold pruneImport
      dsimp only
      split
      · rfl
      · split
        · rfl
        · rfl
        · rename_i specifiers _ eq
          rw [eq, Option.getD_some] at same
          have kept : (specifiers.filter fun s => !isStale inUse s) =
              specifiers.filter fun s => !isStale inUse' s :=
            List.filter_congr fun s mem => by rw [same s mem]
          rw [kept]

/-- What is left of an import differs from it at most in its specifiers. -/
theorem pruneImport_eq_some {inUse : List String} {d kept : ImportDecl}
    (h : (pruneImport corePath inUse d).1 = some kept) :
    kept = { d with specifiers := kept.specifiers } := by
  unfold pruneImport at h
  dsimp only at h
  split at h
  · cases h
    rfl
  · split at h
    · cases h
      rfl
    · cases h
      rfl
    · split at h <;> cases h
      rfl

/-- What is left of imports of the core module has the specifiers that are not stale. -/
theorem coreSpecifiers_prunedImports (inUse : List String) (decls : List ImportDecl) :
    coreSpecifiers corePath (prunedImports corePath inUse decls) =
      (coreSpecifiers corePath decls).filter fun s => !isStale inUse s := by
  induction decls with
  | nil => rfl
  | cons d rest ih =>
      have cons (l : List ImportDecl) : coreSpecifiers corePath (d :: l) =
          (if isOfCore corePath d then d.specifiers.getD [] else []) ++ coreSpecifiers corePath l := by
        unfold coreSpecifiers
        rw [List.filter_cons]
        split <;> simp
      have pruned : coreSpecifiers corePath (prunedImports corePath inUse (d :: rest)) =
          coreSpecifiers corePath (pruneImport corePath inUse d).1.toList ++
            coreSpecifiers corePath (prunedImports corePath inUse rest) := by
        unfold prunedImports coreSpecifiers
        rw [List.filterMap_cons, ← List.flatMap_append, ← List.filter_append]
        cases (pruneImport corePath inUse d).1 <;> rfl
      rw [pruned, ih, cons, List.filter_append]
      congr 1
      cases core : isOfCore corePath d with
      | false =>
          rw [pruneImport_of_other core]
          simp [coreSpecifiers, core]
      | true =>
          rw [if_pos rfl, ← (pruneImport_of_core core).1]
          cases kept : (pruneImport corePath inUse d).1 with
          | none => rfl
          | some k =>
              have ofCore : isOfCore corePath k = true := by
                rw [pruneImport_eq_some kept]
                exact core
              simp [coreSpecifiers, ofCore, specifiersOf]

/-- Some names keep the same imports as others exactly if they hold the same specifiers of decorators. -/
theorem prunedImports_eq_iff {inUse inUse' : List String} {decls : List ImportDecl} :
    prunedImports corePath inUse decls = prunedImports corePath inUse' decls ↔
      ∀ s ∈ coreSpecifiers corePath decls, isDecoratorSpecifier s = true →
        (s.binding.name ∈ inUse ↔ s.binding.name ∈ inUse') := by
  constructor
  · intro same s mem decorator
    have filters : (coreSpecifiers corePath decls).filter (fun s => !isStale inUse s) =
        (coreSpecifiers corePath decls).filter (fun s => !isStale inUse' s) := by
      rw [← coreSpecifiers_prunedImports, ← coreSpecifiers_prunedImports, same]
    have both : (!isStale inUse s) = true ↔ (!isStale inUse' s) = true := by
      have here := congrArg (s ∈ ·) filters
      simpa only [List.mem_filter, mem, true_and, eq_iff_iff] using here
    simpa [isStale_eq, decorator] using both
  · intro same
    refine List.filterMap_congr fun d mem => pruneImport_congr fun core s here => isStale_congr fun decorator => ?_
    exact same s (List.mem_flatMap.mpr ⟨d, List.mem_filter.mpr ⟨mem, core⟩, here⟩) decorator

theorem imports_pruneImports (corePath : String) (body : List Stmt) :
    imports (pruneImports corePath body).1 =
      prunedImports corePath (decoratorsInUse body) (imports body) := by
  unfold pruneImports
  dsimp only
  generalize decoratorsInUse body = inUse
  induction body with
  | nil => rfl
  | cons s rest ih =>
      rw [List.map_cons, List.flatMap_cons, imports_append, ih]
      cases s with
      | importDecl d =>
          have cons : imports (.importDecl d :: rest) = d :: imports rest := rfl
          rw [cons]
          unfold prunedImports
          rw [List.filterMap_cons]
          show imports ((pruneImport corePath inUse d).1.toList.map .importDecl) ++ _ = _
          cases (pruneImport corePath inUse d).1 <;> rfl
      | _ => rfl

/-! ### Decorators that are left -/

/-- The names of the decorators that are left on a component and its members when it is lowered. -/
def leftNames (c : Component) (decl : ClassDef) : List String :=
  ((decl.decorators.filter fun d => !isComponentDecorator d) ++
    ((decl.members.filter fun m => !isLoweredField c m).eraseP isConstructor).flatMap
      memberDecorators).filterMap decoratorName

/-- The constructor that is put among the members carries no decorators, and a constructor that it
replaces carries them away. -/
theorem Installs.memberDecorators {injected : List Stmt} {members new : List Member}
    (h : Installs injected members new) :
    new.flatMap memberDecorators = (members.eraseP isConstructor).flatMap memberDecorators := by
  cases h with
  | first span without =>
      rw [List.eraseP_of_forall_not fun m mem => by simp [without m mem]]
      rfl
  | @instead before after old span without constructs =>
      have skip : ∀ m ∈ before, ¬ isConstructor m = true := fun m mem => by simp [without m mem]
      rw [List.eraseP_append_right _ skip, List.eraseP_cons_of_pos constructs, List.flatMap_append,
        List.flatMap_append]
      rfl

theorem IsLoweredTo.classDecoratorNames {c : Component} {decl lowered : ClassDef}
    (h : IsLoweredTo c decl lowered) : classDecoratorNames lowered = leftNames c decl := by
  obtain ⟨installed, installs, members⟩ := h.members
  have appended : (appendedTrees c.formAssociated c.elementMembers).flatMap memberDecorators = [] := by
    unfold appendedTrees
    rw [List.flatMap_append, List.flatMap_map]
    refine List.append_eq_nil_iff.mpr ⟨?_, List.flatMap_eq_nil_iff.mpr fun _ _ => rfl⟩
    cases c.formAssociated <;> rfl
  unfold Lowering.classDecoratorNames leftNames
  rw [h.decorators, members, List.flatMap_append, appended, List.append_nil,
    installs.memberDecorators]

/-- The names of the decorators that hold their imports under any options.  They are those on a class
that is left alone, and those that are left on a component that is the default export. -/
def visibleNames (source : List Char) (statement : Stmt) : List String :=
  match (class? statement).map fun decl => (decl, readClass source decl) with
  | some (decl, .component c) => if isDefaultExport statement then leftNames c decl else []
  | some (decl, _) => classDecoratorNames decl
  | none => []

/-- The names of the decorators that are left on a component that is not the default export. -/
def hiddenNames (source : List Char) (statement : Stmt) : List String :=
  match (class? statement).map fun decl => (decl, readClass source decl) with
  | some (decl, .component c) => if isDefaultExport statement then [] else leftNames c decl
  | _ => []

/-- The names of the decorators that hold their imports. -/
def namesInUse (options : Options) (m : Module) : List String :=
  m.body.flatMap (visibleNames m.source) ++
    match options.convention with
    | .esm => []
    | .cjs => m.body.flatMap (hiddenNames m.source)

/-- The import declarations of a module that are kept. -/
def keptImports (options : Options) (m : Module) : List ImportDecl :=
  prunedImports options.corePath (namesInUse options m) (imports m.body)

/-- Two options of one core module keep the same imports exactly if their conventions are the same or
each decorator that only the one convention sees is seen elsewhere. -/
theorem keptImports_eq_iff {m : Module} (core : options'.corePath = options.corePath) :
    keptImports options m = keptImports options' m ↔
      options.convention = options'.convention ∨
        ∀ s ∈ coreSpecifiers options.corePath (imports m.body), isDecoratorSpecifier s = true →
          s.binding.name ∈ m.body.flatMap (hiddenNames m.source) →
            s.binding.name ∈ m.body.flatMap (visibleNames m.source) := by
  unfold keptImports namesInUse
  rw [core, prunedImports_eq_iff]
  cases options.convention <;> cases options'.convention <;>
    simp only [List.append_nil, List.mem_append, iff_self, implies_true, true_or, iff_self_or,
      or_iff_left_iff_imp, reduceCtorEq, false_or]

/-! ### Lowered statements -/

/-- Whether a form is a constant. -/
def ClassShape.isConstant : ClassShape → Bool
  | .constant _ => true
  | .declaration | .unchanged => false

/-- Statements are given the form of a constant by one convention, except for the default export. -/
theorem isConstant_classShape (options : Options) (statement : Stmt) :
    (classShape options statement).isConstant =
      (!isDefaultExport statement && options.convention == .esm) := by
  unfold classShape
  cases isDefaultExport statement with
  | true => cases options.componentExport <;> rfl
  | false =>
      cases options.convention with
      | esm => rfl
      | cjs =>
          dsimp only
          split
          · contradiction
          · split <;> rfl

/-- A class with a form is still declared unless the form is a constant. -/
theorem decoratorsInUse_emitted {className : String} (named : isBindingName className = true)
    {statement : Stmt} {lowered : ClassDef} (cls : class? statement = some lowered) :
    decoratorsInUse [emitted options className named lowered statement] =
      if (classShape options statement).isConstant then [] else classDecoratorNames lowered := by
  unfold emitted
  cases classShape options statement with
  | constant exported => cases exported <;> rfl
  | declaration => exact List.flatMap_singleton _ _
  | unchanged =>
      show (List.filterMap class? [statement]).flatMap classDecoratorNames = _
      rw [List.filterMap_cons_some cls]
      exact List.flatMap_singleton _ _

theorem importDecl?_emitted {className : String} (named : isBindingName className = true)
    {statement : Stmt} {lowered : ClassDef} (cls : class? statement = some lowered) :
    importDecl? (emitted options className named lowered statement) = none := by
  unfold emitted
  cases classShape options statement with
  | constant exported => cases exported <;> rfl
  | declaration => rfl
  | unchanged => cases statement <;> first | rfl | cases cls

/-- The piece of a statement is an import only if the statement is. -/
theorem imports_contributes {statement : Stmt} {piece : List Stmt}
    (h : Contributes source options statement piece) : imports piece = imports [statement] := by
  obtain ⟨-, rfl⟩ | ⟨c, named, decl, s, lowered, assigned, -, cls, -, assigns, rfl⟩ :=
    contributes_cases h
  · rfl
  · have notImport : importDecl? statement = none := by
      cases statement <;> first | rfl | cases cls
    have others : assigned.filterMap importDecl? = [] :=
      List.filterMap_eq_nil_iff.mpr fun t mem => by
        obtain ⟨value, rfl⟩ := assigns.eq_expression mem
        rfl
    unfold imports
    rw [List.filterMap_cons_none (importDecl?_emitted named (class?_withClass _ cls)), others,
      List.filterMap_cons_none notImport]
    rfl

theorem imports_pieces {body : List Stmt} {pieces : List (List Stmt)}
    (h : List.Forall₂ (Contributes source options) body pieces) :
    imports pieces.flatten = imports body := by
  induction h with
  | nil => rfl
  | cons contributes _ ih =>
      rw [List.flatten_cons, imports_append, imports_contributes contributes, ih, ← imports_append]
      rfl

/-- The names in use in the piece of a statement. -/
theorem mem_decoratorsInUse_contributes {statement : Stmt} {piece : List Stmt} {name : String}
    (h : Contributes source options statement piece) :
    name ∈ decoratorsInUse piece ↔ name ∈ visibleNames source statement ∨
      options.convention = .cjs ∧ name ∈ hiddenNames source statement := by
  unfold visibleNames hiddenNames
  obtain ⟨other, rfl⟩ | ⟨c, named, decl, s, lowered, assigned, accepted, cls, lowers, assigns, rfl⟩ :=
    contributes_cases h
  · have none := component?_eq_none.mp other
    unfold decoratorsInUse
    cases cls : class? statement with
    | none => simp [cls]
    | some decl =>
        have plain := none decl cls
        unfold isComponent at plain
        cases reads : readClass source decl with
        | component c => simp [reads] at plain
        | plain => simp [cls, reads]
        | skipped reason => simp [cls, reads]
  · have noClasses : assigned.filterMap class? = [] :=
      List.filterMap_eq_nil_iff.mpr fun t mem => by
        obtain ⟨value, rfl⟩ := assigns.eq_expression mem
        rfl
    have inUse : decoratorsInUse (emitted options c.className named lowered.decl
          (withClass lowered.decl statement) :: assigned) =
        decoratorsInUse [emitted options c.className named lowered.decl
          (withClass lowered.decl statement)] := by
      unfold decoratorsInUse
      rw [← List.singleton_append, List.filterMap_append, noClasses, List.append_nil]
    rw [inUse, decoratorsInUse_emitted named (class?_withClass lowered.decl cls),
      isConstant_classShape, (isExport_withClass _ _).2, (lowerClass_ok lowers).classDecoratorNames]
    simp only [cls, Option.map_some, readClass_of_component? accepted cls]
    cases isDefaultExport statement <;> cases options.convention <;> simp

theorem mem_decoratorsInUse_pieces {body : List Stmt} {pieces : List (List Stmt)} {name : String}
    (h : List.Forall₂ (Contributes source options) body pieces) :
    name ∈ decoratorsInUse pieces.flatten ↔ name ∈ body.flatMap (visibleNames source) ∨
      options.convention = .cjs ∧ name ∈ body.flatMap (hiddenNames source) := by
  induction h with
  | nil => simp [decoratorsInUse]
  | @cons statement piece rest pieces contributes _ ih =>
      have append : decoratorsInUse (piece ++ pieces.flatten) =
          decoratorsInUse piece ++ decoratorsInUse pieces.flatten := by
        unfold decoratorsInUse
        rw [List.filterMap_append, List.flatMap_append]
      rw [List.flatten_cons, append, List.mem_append, mem_decoratorsInUse_contributes contributes, ih,
        List.flatMap_cons, List.flatMap_cons, List.mem_append, List.mem_append]
      tauto

/-- The names in use in a lowered module are those that hold their imports. -/
theorem mem_decoratorsInUse_iff {m : Module} {pieces : List (List Stmt)} {name : String}
    (h : List.Forall₂ (Contributes m.source options) m.body pieces) :
    name ∈ decoratorsInUse pieces.flatten ↔ name ∈ namesInUse options m := by
  rw [mem_decoratorsInUse_pieces h, namesInUse, List.mem_append]
  cases options.convention <;> simp

/-! ### Lowered modules -/

variable {m out out' : Module} {report report' : LoweringReport} {log log' other other' : Log}

/-- Whether the imports of a lowered module are some of the module, between those that are made. -/
def ImportsAround (options : Options) (m : Module) (kept : List ImportDecl) (out : Module) : Prop :=
  ∃ sheets : List Sheet,
    imports out.body =
      imports [coreBinding options.convention options.corePath
        (coreFunctions (m.body.filterMap (component? m.source)))] ++
      kept ++
      imports (sheets.map fun s => sheetImport options.convention s.name s.path)

theorem importsAround_lowerModule (h : Gives (lowerModule options m) (report, out))
    (nonempty : report.components ≠ []) : ImportsAround options m (keptImports options m) out := by
  obtain ⟨lowered, pieces, -, contribute, -, body⟩ := lowerModule_body h nonempty
  have same : prunedImports options.corePath (decoratorsInUse pieces.flatten) (imports m.body) =
      keptImports options m := by
    exact prunedImports_eq_iff.mpr fun s _ _ => mem_decoratorsInUse_iff contribute
  refine ⟨lowered.state.styles.sheets, ?_⟩
  rw [body, imports_withImports options.convention _ _ _ _ _ rfl, imports_pruneImports,
    imports_pieces contribute, same]

/-- The imports that are kept when a module is lowered under two options of one core module.  They are
the same if and only if the conventions are, or each decorator that is left on a component and has its
specifier among the imports of the core module is also carried by a class that is no component or by the
default export. -/
theorem lowerModule_keeps (run : (lowerModule options m).run.run log = (.ok (report, out), log'))
    (run' : (lowerModule options' m).run.run other = (.ok (report', out'), other'))
    (core : options'.corePath = options.corePath) :
    (report.components = [] → out = m ∧ out' = m) ∧
      (report.components ≠ [] →
        ImportsAround options m (keptImports options m) out ∧
        ImportsAround options' m (keptImports options' m) out' ∧
        (keptImports options m = keptImports options' m ↔
          options.convention = options'.convention ∨
            ∀ s ∈ coreSpecifiers options.corePath (imports m.body), isDecoratorSpecifier s = true →
              s.binding.name ∈ m.body.flatMap (hiddenNames m.source) →
                s.binding.name ∈ m.body.flatMap (visibleNames m.source))) := by
  have gives : Gives (lowerModule options m) (report, out) := ⟨log, log', run⟩
  have gives' : Gives (lowerModule options' m) (report', out') := ⟨other, other', run'⟩
  have components : report'.components = report.components :=
    (components_lowerModule gives').trans (components_lowerModule gives).symm
  constructor
  · intro none
    obtain ⟨-, -, -, unchanged, -⟩ := lowerModule_ok gives
    obtain ⟨-, -, -, unchanged', -⟩ := lowerModule_ok gives'
    exact ⟨unchanged none, unchanged' (components.trans none)⟩
  · intro nonempty
    exact ⟨importsAround_lowerModule gives nonempty,
      importsAround_lowerModule gives' (components ▸ nonempty), keptImports_eq_iff core⟩

/-! ### A decorator that is left on a static field -/

/-- A module that imports the decorator of a field which stays, as it is static. -/
def static : String :=
  "import \x7b Component, Element \x7d from '@stencil/core';\n" ++
    "@Component(\x7b tag: 'a-a' \x7d)\nclass A \x7b\n  @Element() static el;\n\x7d\n"

/-- Whether a module is lowered under two options, and the first drops a specifier that the second
keeps. -/
def dropsMore (options options' : Options) (m : Module) : Bool :=
  match (lowerModule options m).run.run [], (lowerModule options' m).run.run [] with
  | (.ok (_, out), _), (.ok (_, out'), _) =>
    (m.body.flatMap specifiersOf).any fun s =>
      !(out.body.flatMap specifiersOf).contains s && (out'.body.flatMap specifiersOf).contains s
  | _, _ => false

theorem of_dropsMore (h : dropsMore options options' m = true) :
    ∃ report out log report' out' log',
      (lowerModule options m).run.run [] = (.ok (report, out), log) ∧
      (lowerModule options' m).run.run [] = (.ok (report', out'), log') ∧
      ∃ s ∈ m.body.flatMap specifiersOf,
        s ∉ out.body.flatMap specifiersOf ∧ s ∈ out'.body.flatMap specifiersOf := by
  unfold dropsMore at h
  split at h
  · rename_i report out log report' out' log' run run'
    simp only [List.any_eq_true, Bool.and_eq_true, Bool.not_eq_true', List.contains_eq_mem,
      decide_eq_true_eq, decide_eq_false_iff_not] at h
    exact ⟨report, out, log, report', out', log', run, run', h⟩
  · cases h

theorem static_read :
    ∃ m, Module.read (.ofPath "a.ts") static.toList = .ok m ∧
      dropsMore defaults requiring m = true :=
  exists_of_read (by decide +kernel)

/-- An import specifier is dropped under one convention and kept under the other. -/
theorem static_dropsMore :
    ∃ m report out log report' out' log', Module.read (.ofPath "a.ts") static.toList = .ok m ∧
      (lowerModule defaults m).run.run [] = (.ok (report, out), log) ∧
      (lowerModule requiring m).run.run [] = (.ok (report', out'), log') ∧
      ∃ s ∈ m.body.flatMap specifiersOf,
        s ∉ out.body.flatMap specifiersOf ∧ s ∈ out'.body.flatMap specifiersOf := by
  obtain ⟨m, read, drops⟩ := static_read
  obtain ⟨report, out, log, report', out', log', rest⟩ := of_dropsMore drops
  exact ⟨m, report, out, log, report', out', log', read, rest⟩

/-- The module is lowered under both conventions, so it is known which imports each keeps. -/
theorem static_keeps :
    ∃ m report out log report' out' log', Module.read (.ofPath "a.ts") static.toList = .ok m ∧
      (lowerModule defaults m).run.run [] = (.ok (report, out), log) ∧
      (lowerModule requiring m).run.run [] = (.ok (report', out'), log') ∧
      requiring.corePath = defaults.corePath ∧
      (report.components = [] → out = m ∧ out' = m) ∧
      (report.components ≠ [] →
        ImportsAround defaults m (keptImports defaults m) out ∧
        ImportsAround requiring m (keptImports requiring m) out' ∧
        (keptImports defaults m = keptImports requiring m ↔
          defaults.convention = requiring.convention ∨
            ∀ s ∈ coreSpecifiers defaults.corePath (imports m.body), isDecoratorSpecifier s = true →
              s.binding.name ∈ m.body.flatMap (hiddenNames m.source) →
                s.binding.name ∈ m.body.flatMap (visibleNames m.source))) := by
  obtain ⟨m, read, drops⟩ := static_read
  obtain ⟨report, out, log, report', out', log', run, run', -⟩ := of_dropsMore drops
  exact ⟨m, report, out, log, report', out', log', read, run, run', rfl,
    lowerModule_keeps run run' rfl⟩

end ComponentLowering.Lowering
