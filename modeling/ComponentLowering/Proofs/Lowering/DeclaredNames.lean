/-
# Names that a lowered module declares

A lowered module declares the names of the module, less those whose imports were dropped, the names of
its style sheets, and the names of the core functions.  The sheets have names of their own.  Those of
the core functions are fixed, and so is the parameter of a lowered constructor: whoever declares them
already ends with two declarations.
-/
import ComponentLowering.Proofs.Lowering.Constructors
import ComponentLowering.Proofs.Lowering.DroppedImports
import ComponentLowering.Proofs.Style.FreshSheets

namespace ComponentLowering.Lowering

open ComponentLowering.Component ComponentLowering.Report ComponentLowering.Settings
open ComponentLowering.Style ComponentLowering.Syntax ComponentLowering.Syntax.Parser

variable {source : List Char} {options : Options} {corePath : String}

/-! ### Names of single statements -/

theorem statementNames_coreBinding (convention : Convention) (functions : List CoreFunction) :
    statementNames (coreBinding convention corePath functions) = functions.map (·.localName) := by
  cases convention with
  | esm => simp [statementNames, coreBinding, madeImport, madeSpecifier, ImportSpecifier.binding, CoreFunction.names]
  | cjs =>
      have properties (fs : List CoreFunction) :
          patternsBoundNames false (fs.map fun f => madeProperty f.names) =
            fs.map (·.localName) := by
        induction fs with
        | nil => rfl
        | cons f rest ih =>
            rw [List.map_cons, patternsBoundNames, ih]
            rfl
      simp [statementNames, coreBinding, madeConstant, declarationNames, Pattern.boundNames, properties]

theorem statementNames_sheetImport (convention : Convention) (name path : String) :
    statementNames (sheetImport convention name path) = [name] := by
  cases convention <;> rfl

theorem statementNames_of_class? {s : Stmt} {decl : ClassDef} (h : class? s = some decl) :
    statementNames s = (decl.name.map (·.name)).toList := by
  cases s with
  | classDecl old => cases h; rfl
  | exportDecl span inner => cases inner <;> first | (cases h; rfl) | cases h
  | exportDefault span inner => cases inner <;> first | (cases h; rfl) | cases h
  | _ => cases h

/-- A class statement declares the name of its class, whatever form it is given. -/
theorem statementNames_emitted {statement : Stmt} {decl lowered : ClassDef} {className : String}
    (named : isBindingName className = true) (cls : class? statement = some decl)
    (name : decl.name.map (·.name) = some className) (same : lowered.name = decl.name) :
    statementNames (emitted options className named lowered (withClass lowered statement)) =
      statementNames statement := by
  rw [statementNames_of_class? cls, name]
  unfold emitted shaped
  split
  · split <;> rfl
  · rfl
  · rw [statementNames_of_class? (class?_withClass lowered cls), same, name]

/-- What a statement contributes to the lowered module declares the names that it declares itself. -/
theorem moduleNames_contributes {statement : Stmt} {piece : List Stmt}
    (h : Contributes source options statement piece) :
    moduleNames piece = statementNames statement := by
  have component {decl : ClassDef} {c : Component} {s : ModuleState} {lowered : LoweredClass}
      (accepted : component? source statement = some c) (named : isBindingName c.className = true)
      (cls : class? statement = some decl) (lowers : lowerClass decl c s = .ok lowered) :
      statementNames (emitted options c.className named lowered.decl
        (withClass lowered.decl statement)) = statementNames statement := by
    have name := (isReadAs_of_component (readClass_of_component? accepted cls)).name
    exact statementNames_emitted named cls name (by rw [(lowerClass_ok lowers).rest])
  unfold moduleNames
  cases h with
  | unchanged other => exact List.flatMap_singleton _ _
  | plain accepted named cls lowers styles =>
      rw [List.flatMap_singleton]
      exact component accepted named cls lowers
  | styled accepted named cls lowers styles keys =>
      rw [List.flatMap_cons, List.flatMap_singleton, component accepted named cls lowers]
      exact List.append_nil _

theorem moduleNames_pieces {body : List Stmt} {pieces : List (List Stmt)}
    (h : List.Forall₂ (Contributes source options) body pieces) :
    moduleNames pieces.flatten = moduleNames body := by
  unfold moduleNames
  induction h with
  | nil => rfl
  | cons contributes _ ih =>
      rw [List.flatten_cons, List.flatMap_append, ih, List.flatMap_cons]
      exact congrArg (· ++ _) (moduleNames_contributes contributes)

/-! ### Names of dropped imports -/

/-- The names that pruning leaves of a statement, and those that it drops. -/
theorem statementNames_prune (corePath : String) (inUse : List String) (s : Stmt) :
    (moduleNames (pruneStatement corePath inUse s).1 ++
      (droppedFrom corePath inUse s).map (·.binding.name)).Perm (statementNames s) := by
  cases s with
  | importDecl d =>
      have names (kept : Option ImportDecl) :
          moduleNames (kept.toList.map Stmt.importDecl) =
            ((kept.toList.map Stmt.importDecl).flatMap specifiersOf).map (·.binding.name) := by
        cases kept with
        | none => rfl
        | some d => simp [moduleNames, statementNames, specifiersOf]
      rw [droppedFrom_importDecl]
      unfold pruneStatement
      dsimp only
      cases core : isOfCore corePath d with
      | true =>
          rw [names, (pruneImport_of_core core).1, if_pos rfl, ← List.map_append]
          refine List.Perm.map _ (List.perm_append_comm.trans ?_)
          exact List.filter_append_perm _ _
      | false =>
          rw [pruneImport_of_other core]
          simp [moduleNames]
  | _ => simp [moduleNames, pruneStatement, droppedFrom, specifiersOf]

/-- The names of some statements are those that are left when stale imports are dropped, and those of
the dropped ones. -/
theorem moduleNames_prune (corePath : String) (body : List Stmt) :
    (moduleNames (pruneImports corePath body).1 ++
      (dropped corePath body).map (·.binding.name)).Perm (moduleNames body) := by
  unfold pruneImports dropped
  dsimp only
  generalize decoratorsInUse body = inUse
  have kept : moduleNames ((body.map (pruneStatement corePath inUse)).flatMap (·.1)) =
      body.flatMap fun s => moduleNames (pruneStatement corePath inUse s).1 := by
    unfold moduleNames
    rw [List.flatMap_map, List.flatMap_assoc]
  rw [kept, List.map_flatMap]
  exact (List.flatMap_append_perm body _ _).trans
    (List.Perm.flatMap_left body fun s _ => statementNames_prune corePath inUse s)

/-- If some statements declare no name twice, a name is gone exactly if no import of it is left. -/
theorem not_mem_pruneImports_iff {body : List Stmt} (distinct : (moduleNames body).Nodup) {n : String} :
    n ∉ moduleNames (pruneImports corePath body).1 ↔
      (n ∈ moduleNames body → n ∈ (dropped corePath body).map (·.binding.name)) := by
  have perm := moduleNames_prune corePath body
  obtain ⟨-, -, apart⟩ := List.nodup_append'.mp (perm.nodup_iff.mpr distinct)
  rw [← perm.mem_iff, List.mem_append]
  constructor
  · exact fun gone declared => declared.resolve_left gone
  · exact fun drops kept => apart kept (drops (.inl kept))

/-! ### Names of sheets and core functions -/

/-- When the first class is lowered, the names of the module are taken. -/
theorem isFresh_initialState (body : List Stmt) :
    (initialState body).styles.IsFresh (moduleNames body) := by
  have reserved : initialState body = StateCall.run ((moduleNames body).map .reserve) := by
    rw [initialState, StateCall.run, StateCall.applyAll, List.foldl_map]
    rfl
  have none := (initialState_eq body).2.1
  refine ⟨?_, ?_, by simp [none], by simp [none]⟩
  · rw [reserved]
    exact StateCall.sound_run _
  · intro name mem
    rw [reserved]
    exact StateCall.mem_taken_of_reserve (List.mem_map_of_mem mem)

theorem localName_injective : Function.Injective CoreFunction.localName := by
  intro f g
  cases f <;> cases g <;> decide

theorem nodup_coreFunctions (components : List Component) : (coreFunctions components).Nodup := by
  unfold coreFunctions
  split <;> decide

/-- Fresh sheets add no second declaration to names that differ, so only core functions can. -/
theorem nodup_withImports_iff {convention : Convention} {functions : List CoreFunction}
    {kept : List Stmt} {reserved : List String} {l : Ledger} (once : functions.Nodup)
    (fresh : l.IsFresh reserved) (names : moduleNames kept ⊆ reserved)
    (distinct : (moduleNames kept).Nodup) :
    (moduleNames (withImports convention [coreBinding convention corePath functions]
        (l.sheets.map fun s => sheetImport convention s.name s.path) kept)).Nodup ↔
      ∀ f ∈ functions, f.localName ∉ moduleNames kept := by
  have core : [coreBinding convention corePath functions].flatMap statementNames =
      functions.map (·.localName) := by
    rw [List.flatMap_singleton, statementNames_coreBinding]
  have sheets : (l.sheets.map fun s => sheetImport convention s.name s.path).flatMap statementNames =
      l.sheets.map (·.name) := by
    rw [List.flatMap_map, ← List.flatMap_singleton' (l.sheets.map (·.name)), List.flatMap_map]
    simp only [statementNames_sheetImport]
  have perm := flatMap_withImports_perm convention [coreBinding convention corePath functions]
    (l.sheets.map fun s => sheetImport convention s.name s.path) kept statementNames
  rw [core, sheets] at perm
  have ownCore : (functions.map (·.localName) ++ l.sheets.map (·.name)).Nodup := by
    refine List.nodup_append'.mpr ⟨once.map localName_injective, fresh.sound.names, ?_⟩
    intro n coreName sheetName
    obtain ⟨f, -, rfl⟩ := List.mem_map.mp coreName
    obtain ⟨s, mem, eq⟩ := List.mem_map.mp sheetName
    exact not_isParted_localName f (eq ▸ fresh.parted s mem)
  have ownSheets : (l.sheets.map (·.name)).Disjoint (moduleNames kept) := by
    intro n sheetName declared
    obtain ⟨s, mem, rfl⟩ := List.mem_map.mp sheetName
    exact fresh.free s mem (names declared)
  rw [moduleNames, perm.nodup_iff, List.nodup_append']
  constructor
  · rintro ⟨-, -, apart⟩ f mem declared
    exact apart (List.mem_append_left _ (List.mem_map_of_mem mem)) declared
  · intro others
    refine ⟨ownCore, distinct, List.disjoint_append_left.mpr ⟨?_, ownSheets⟩⟩
    intro n coreName declared
    obtain ⟨f, mem, rfl⟩ := List.mem_map.mp coreName
    exact others f mem declared

/-! ### Names in constructors -/

/-- The names that a statement declares in the block around it: those of constants, of variables that
are local to the block, and of classes. -/
def lexicalNames : Stmt → List String
  | .variableDecl _ _ kind items =>
    if kind = .let ∨ kind = .const then items.flatMap fun d => d.target.boundNames true else []
  | .classDecl decl => (decl.name.map (·.name)).toList
  | _ => []

/-- The names that are declared directly in a block. -/
def blockNames (body : List Stmt) : List String := body.flatMap lexicalNames

/-- What is written into a constructor declares nothing in it. -/
theorem blockNames_injected (internals : List String) (rest : List Stmt) :
    blockNames (injectedStatements internals ++ rest) = blockNames rest := by
  have none : blockNames (injectedStatements internals) = [] := by
    unfold blockNames injectedStatements
    rw [List.flatMap_cons, List.flatMap_map]
    exact List.flatMap_eq_nil_iff.mpr fun _ _ => rfl
  unfold blockNames at none ⊢
  rw [List.flatMap_append, none, List.nil_append]

/-- The class that a statement declares or binds to a constant. -/
def heldClass? (s : Stmt) : Option ClassDef :=
  match s with
  | .variableDecl _ _ _ (d :: _) | .exportDecl _ (.variableDecl _ _ _ (d :: _)) =>
    match d.value with
    | some (.classExpr decl) => some decl
    | _ => none
  | _ => class? s

/-- Whether a class is the lowered form of another, as far as its constructor goes: it takes the host,
and it declares a name like its parameter exactly if the constructor that it replaces did. -/
def RewritesConstructor (decl new : ClassDef) : Prop :=
  ∃ span body, (constructors new.members).head? = some (hostConstructor span body) ∧
    (hostName ∈ blockNames body ↔ hostName ∈ blockNames (firstStatements decl))

theorem heldClass?_of_class? {s : Stmt} {decl : ClassDef} (h : class? s = some decl) :
    heldClass? s = some decl := by
  cases s with
  | classDecl old => exact h
  | exportDecl span inner => cases inner <;> first | exact h | cases h
  | exportDefault span inner => exact h
  | _ => cases h

/-- The class that is held by the statement that is emitted for a lowered class. -/
def emittedClass (options : Options) (className : String) (named : isBindingName className = true)
    (lowered : ClassDef) (statement : Stmt) : ClassDef :=
  match classShape options statement with
  | .constant _ => fillClass (madeClass none Option.all_none) lowered
  | .declaration =>
    { fillClass (madeClass (some className) named) lowered with span := statement.span }
  | .unchanged => lowered

theorem heldClass?_emitted {statement : Stmt} {decl lowered : ClassDef} {className : String}
    (named : isBindingName className = true) (cls : class? statement = some decl) :
    heldClass? (emitted options className named lowered (withClass lowered statement)) =
      some (emittedClass options className named lowered (withClass lowered statement)) := by
  unfold emitted shaped emittedClass
  cases classShape options (withClass lowered statement) with
  | constant exported => cases exported <;> rfl
  | declaration => rfl
  | unchanged => exact heldClass?_of_class? (class?_withClass lowered cls)

theorem emittedClass_members {statement : Stmt} {lowered : ClassDef} {className : String}
    (named : isBindingName className = true) :
    (emittedClass options className named lowered statement).members = lowered.members := by
  unfold emittedClass
  split <;> rfl

theorem rewritesConstructor_of_lowers {decl held : ClassDef} {c : Component} {s : ModuleState}
    {lowered : LoweredClass} (lowers : lowerClass decl c s = .ok lowered)
    (members : held.members = lowered.decl.members) : RewritesConstructor decl held := by
  obtain ⟨span, eq⟩ := (lowerClass_ok lowers).constructors
  refine ⟨span, _, by rw [members, eq]; rfl, ?_⟩
  rw [blockNames_injected]
  rfl

/-! ### Lowered modules -/

/-- The classes of a module that are components. -/
def acceptedClasses (m : Module) : List ClassDef :=
  (classes m.body).filter (isComponent m.source)

/-- A component becomes a class with a rewritten constructor; other statements are left as they are. -/
theorem rewritten_contributes {statement : Stmt} {piece : List Stmt}
    (h : Contributes source options statement piece) :
    ∃ rewritten, List.Forall₂ RewritesConstructor
      ((classes [statement]).filter (isComponent source)) rewritten ∧
      rewritten.Sublist (piece.filterMap heldClass?) := by
  have component {decl : ClassDef} {c : Component} {s : ModuleState} {lowered : LoweredClass}
      (accepted : component? source statement = some c) (named : isBindingName c.className = true)
      (cls : class? statement = some decl) (lowers : lowerClass decl c s = .ok lowered)
      (more : List Stmt) :
      ∃ rewritten, List.Forall₂ RewritesConstructor
        ((classes [statement]).filter (isComponent source)) rewritten ∧
        rewritten.Sublist ((emitted options c.className named lowered.decl
          (withClass lowered.decl statement) :: more).filterMap heldClass?) := by
    have is : isComponent source decl = true := by
      simp [isComponent, readClass_of_component? accepted cls]
    have holds := @heldClass?_emitted options _ _ lowered.decl _ named cls
    refine ⟨[_], ?_, by rw [List.filterMap_cons_some holds]; exact (List.nil_sublist _).cons_cons _⟩
    simpa [classes, cls, is] using rewritesConstructor_of_lowers lowers (emittedClass_members named)
  cases h with
  | unchanged other =>
      have none : (classes [statement]).filter (isComponent source) = [] := by
        refine List.filter_eq_nil_iff.mpr fun decl mem => ?_
        obtain ⟨s, here, cls⟩ := List.mem_filterMap.mp mem
        rw [List.mem_singleton.mp here] at cls
        simp [component?_eq_none.mp other decl cls]
      rw [none]
      exact ⟨[], .nil, List.nil_sublist _⟩
  | plain accepted named cls lowers styles => exact component accepted named cls lowers []
  | styled accepted named cls lowers styles keys => exact component accepted named cls lowers _

/-- Each component becomes a class with a rewritten constructor, in the order of the text. -/
theorem rewritten_pieces {body : List Stmt} {pieces : List (List Stmt)}
    (h : List.Forall₂ (Contributes source options) body pieces) :
    ∃ rewritten, List.Forall₂ RewritesConstructor ((classes body).filter (isComponent source))
      rewritten ∧ rewritten.Sublist (pieces.flatten.filterMap heldClass?) := by
  induction h with
  | nil => exact ⟨[], .nil, List.Sublist.refl _⟩
  | @cons statement piece rest pieces contributes _ ih =>
      obtain ⟨here, rewrites, sub⟩ := rewritten_contributes contributes
      obtain ⟨later, rewrites', sub'⟩ := ih
      have split : classes (statement :: rest) = classes [statement] ++ classes rest :=
        List.filterMap_append (l := [statement])
      refine ⟨here ++ later, ?_, ?_⟩
      · rw [split, List.filter_append]
        exact List.rel_append rewrites rewrites'
      · rw [List.flatten_cons, List.filterMap_append]
        exact sub.append sub'

/-- What stands among the imports of a lowered module is left in its order. -/
theorem sublist_withImports (convention : Convention) (core styles body : List Stmt) :
    body.Sublist (withImports convention core styles body) := by
  cases convention with
  | esm =>
      unfold withImports
      dsimp only
      conv => lhs; rw [← List.take_append_drop (afterLastImport body) body]
      exact ((List.sublist_append_right core _).trans (List.sublist_append_left _ styles)).append
        (List.Sublist.refl _)
  | cjs => exact List.sublist_append_right _ _

/-- The classes that lowered statements hold are still held when imports are dropped and added. -/
theorem heldClasses_sublist (convention : Convention) (core styles body : List Stmt) :
    (body.filterMap heldClass?).Sublist
      ((withImports convention core styles (pruneImports corePath body).1).filterMap
        heldClass?) := by
  have kept : (pruneImports corePath body).1.filterMap heldClass? = body.filterMap heldClass? := by
    rw [List.filterMap_eq_flatMap_toList, List.filterMap_eq_flatMap_toList]
    exact flatMap_pruneImports fun _ => rfl
  rw [← kept]
  exact (sublist_withImports _ _ _ _).filterMap _

variable {m out : Module} {report : LoweringReport} {log log' : Log}

/-- Names that a lowered module declares, if the module declares none twice.  The lowered statements
declare the names of the module, and the lowered module declares none twice if and only if each core
function that is called has a name that the module does not declare, or declares with an import that is
dropped.  The constructor of each lowered class declares a name like its parameter directly in its body
if and only if the constructor that it replaces did. -/
theorem lowerModule_declares (run : (lowerModule options m).run.run log = (.ok (report, out), log'))
    (distinct : (moduleNames m.body).Nodup) :
    ∃ lowered, Gives (lowerStatements m.source options m.body (initialState m.body)) lowered ∧
      moduleNames lowered.statements = moduleNames m.body ∧
      ((moduleNames out.body).Nodup ↔
        ∀ f ∈ lowered.state.used.functions, f.localName ∈ moduleNames m.body →
          f.localName ∈ (dropped options.corePath lowered.statements).map (·.binding.name)) ∧
      ∃ rewritten, List.Forall₂ RewritesConstructor (acceptedClasses m) rewritten ∧
        rewritten.Sublist (out.body.filterMap heldClass?) := by
  obtain ⟨named, -, unused⟩ := initialState_eq m.body
  have components := components_lowerModule ⟨log, log', run⟩
  by_cases accepted : m.body.filterMap (component? m.source) = []
  · rw [accepted, List.map_nil] at components
    obtain ⟨lowered, lowers, -, same, -⟩ := lowerModule_ok ⟨log, log', run⟩
    obtain rfl := same components
    have all := lowers_statements named lowers
    obtain ⟨pieces, contribute, statements⟩ := all.pieces
    refine ⟨lowered, lowers, by rw [statements, moduleNames_pieces contribute], ?_, [], ?_,
      List.nil_sublist _⟩
    · rw [all.used, unused, accepted]
      simpa [CoreUse.functions] using distinct
    · have others := forall_component?_eq_none.mp (List.filterMap_eq_nil_iff.mp accepted)
      have empty : acceptedClasses out = [] :=
        List.filter_eq_nil_iff.mpr fun decl mem => by simp [others decl mem]
      rw [empty]
      exact .nil
  · have nonempty : report.components ≠ [] := by
      rw [components]
      exact fun none => accepted (List.map_eq_nil_iff.mp none)
    obtain ⟨lowered, pieces, lowers, contribute, statements, body⟩ :=
      lowerModule_body ⟨log, log', run⟩ nonempty
    have all := lowers_statements named lowers
    have fresh := (isFresh_initialState m.body).run all.styles.reached
    have names : moduleNames lowered.statements = moduleNames m.body := by
      rw [statements, moduleNames_pieces contribute]
    have functions : lowered.state.used.functions =
        coreFunctions (m.body.filterMap (component? m.source)) := by
      rw [all.used, unused, functions_usedBy accepted]
    obtain ⟨rewritten, rewrites, sub⟩ := rewritten_pieces contribute
    rw [← statements] at body sub
    have perm := moduleNames_prune options.corePath lowered.statements
    rw [names] at perm
    refine ⟨lowered, lowers, names, ?_, rewritten, rewrites, ?_⟩
    · rw [body, functions, nodup_withImports_iff
        (nodup_coreFunctions (m.body.filterMap (component? m.source))) fresh
        (fun n mem => perm.subset (List.mem_append_left _ mem))
        (perm.nodup_iff.mpr distinct).of_append_left]
      refine forall₂_congr fun f _ => ?_
      rw [not_mem_pruneImports_iff (names ▸ distinct), names]
    · rw [body]
      exact sub.trans (heldClasses_sublist _ _ _ _)

/-! ### A module that declares the name of a core function -/

/-- A module with a component that declares what the core function is bound to. -/
def occupied : String :=
  "const __stencil_registerInstance = 1;\n@Component(\x7b tag: 'a-a' \x7d)\nclass A \x7b\x7d\n"

/-- Whether a module declares each name once, its components have no constructors, and it is lowered to
one that declares a name twice. -/
def redeclares (options : Options) (m : Module) : Bool :=
  match (lowerModule options m).run.run [] with
  | (.ok (_, out), _) =>
    decide (moduleNames m.body).Nodup &&
      (acceptedClasses m).all (fun decl => (constructors decl.members).isEmpty) &&
      !decide (moduleNames out.body).Nodup
  | _ => false

theorem of_redeclares (h : redeclares options m = true) :
    ∃ report out log, (lowerModule options m).run.run [] = (.ok (report, out), log) ∧
      (moduleNames m.body).Nodup ∧ (∀ decl ∈ acceptedClasses m, constructors decl.members = []) ∧
      ¬ (moduleNames out.body).Nodup := by
  unfold redeclares at h
  split at h
  · rename_i report out log run
    simp only [Bool.and_eq_true, decide_eq_true_eq, List.all_eq_true, List.isEmpty_iff,
      Bool.not_eq_true', decide_eq_false_iff_not] at h
    exact ⟨report, out, log, run, h.1.1, h.1.2, h.2⟩
  · cases h

theorem occupied_read :
    ∃ m, Module.read (.ofPath "a.ts") occupied.toList = .ok m ∧ redeclares defaults m = true :=
  exists_of_read (by decide +kernel)

/-- The name of the core function is declared twice in the lowered module. -/
theorem occupied_redeclares :
    ∃ m report out log, Module.read (.ofPath "a.ts") occupied.toList = .ok m ∧
      (lowerModule defaults m).run.run [] = (.ok (report, out), log) ∧ (moduleNames m.body).Nodup ∧
      (∀ decl ∈ acceptedClasses m, constructors decl.members = []) ∧
      ¬ (moduleNames out.body).Nodup := by
  obtain ⟨m, read, twice⟩ := occupied_read
  obtain ⟨report, out, log, rest⟩ := of_redeclares twice
  exact ⟨m, report, out, log, read, rest⟩

/-- The module declares each name once and is lowered, so the names of its lowered form are known. -/
theorem occupied_declares :
    ∃ m report out log lowered, Module.read (.ofPath "a.ts") occupied.toList = .ok m ∧
      (lowerModule defaults m).run.run [] = (.ok (report, out), log) ∧ (moduleNames m.body).Nodup ∧
      Gives (lowerStatements m.source defaults m.body (initialState m.body)) lowered ∧
      moduleNames lowered.statements = moduleNames m.body ∧
      ((moduleNames out.body).Nodup ↔
        ∀ f ∈ lowered.state.used.functions, f.localName ∈ moduleNames m.body →
          f.localName ∈ (dropped defaults.corePath lowered.statements).map (·.binding.name)) ∧
      ∃ rewritten, List.Forall₂ RewritesConstructor (acceptedClasses m) rewritten ∧
        rewritten.Sublist (out.body.filterMap heldClass?) := by
  obtain ⟨m, read, twice⟩ := occupied_read
  obtain ⟨report, out, log, run, distinct, -⟩ := of_redeclares twice
  obtain ⟨lowered, declares⟩ := lowerModule_declares run distinct
  exact ⟨m, report, out, log, lowered, read, run, distinct, declares⟩

end ComponentLowering.Lowering
