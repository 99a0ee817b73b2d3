/-
# What statements become

A statement that declares no component stays as it is.  One that declares a component becomes a
class statement, with an assignment behind it if styles are attached to the class.
-/
import ComponentLowering.Lowering.LoweredModule
import ComponentLowering.Proofs.Component.Outline
import ComponentLowering.Proofs.Lowering.ClassFrames
import ComponentLowering.Proofs.Style.Hoisting
import ComponentLowering.Proofs.Style.StyleAssignment
import Mathlib.Data.List.Forall2

namespace ComponentLowering.Lowering

open ComponentLowering.Code ComponentLowering.Component ComponentLowering.Report
open ComponentLowering.Settings ComponentLowering.Style ComponentLowering.Syntax

variable {α β : Type} {source : List Char} {options : Options}

/-! ### Computations that succeed -/

theorem ok_of_bind {ε : Type} {x : Except ε α} {f : α → Except ε β} {b : β}
    (h : (x >>= f) = .ok b) : ∃ a, x = .ok a ∧ f a = .ok b := by
  cases x with
  | error e => cases h
  | ok a => exact ⟨a, rfl, h⟩

theorem run_bind {α β : Type} {x : Logging α} {f : α → Logging β} {a : α} {log between : Log}
    (h : x.run.run log = (.ok a, between)) :
    (x >>= f).run.run log = (f a).run.run between := by
  rw [ExceptT.run_bind, StateT.run_bind, h]
  rfl

theorem run_bind_error {α β : Type} {x : Logging α} {failure : Failure} {log between : Log}
    (f : α → Logging β) (h : x.run.run log = (.error failure, between)) :
    (x >>= f).run.run log = (.error failure, between) := by
  rw [ExceptT.run_bind, StateT.run_bind, h]
  rfl

/-- Whether a computation can end with a value, whatever messages were sent before it. -/
def Gives (x : Logging α) (a : α) : Prop := ∃ log log', x.run.run log = (.ok a, log')

theorem gives_bind {x : Logging α} {f : α → Logging β} {b : β} (h : Gives (x >>= f) b) :
    ∃ a, Gives x a ∧ Gives (f a) b := by
  obtain ⟨log, log', eq⟩ := h
  simp only [ExceptT.run_bind, StateT.run_bind] at eq
  rcases run : x.run.run log with ⟨failure | a, between⟩
  · rw [run] at eq
    cases eq
  · rw [run] at eq
    exact ⟨a, ⟨log, between, run⟩, between, log', eq⟩

@[simp]
theorem gives_pure {a b : α} : Gives (pure a : Logging α) b ↔ b = a := by
  constructor
  · rintro ⟨log, log', eq⟩
    exact (Except.ok.inj (Prod.mk.inj eq).1).symm
  · rintro rfl
    exact ⟨[], [], rfl⟩

@[simp]
theorem gives_lift {result : Except Failure α} {a : α} : Gives (lift result) a ↔ result = .ok a := by
  cases result with
  | error failure =>
      constructor
      · rintro ⟨log, log', eq⟩
        cases (Prod.mk.inj eq).1
      · rintro ⟨⟩
  | ok b => exact gives_pure.trans ⟨fun h => h ▸ rfl, fun h => (Except.ok.inj h).symm⟩

/-! ### Classes of a module -/

/-- A check that a text passes is passed by the module that it is read as. -/
theorem exists_of_read {dialect : Dialect} {text : List Char} {check : Module → Bool}
    (h : (match Module.read dialect text with
      | .ok m => check m
      | .error _ => false) = true) :
    ∃ m, Module.read dialect text = .ok m ∧ check m = true := by
  split at h
  · rename_i m read
    exact ⟨m, read, h⟩
  · cases h

/-- The classes that statements declare. -/
def classes (body : List Stmt) : List ClassDef := body.filterMap class?

/-- The component that a statement declares, if it declares one. -/
def component? (source : List Char) (statement : Stmt) : Option Component :=
  match (class? statement).map (readClass source) with
  | some (.component c) => some c
  | _ => none

theorem readClass_of_component? {statement : Stmt} {decl : ClassDef} {c : Component}
    (accepted : component? source statement = some c) (cls : class? statement = some decl) :
    readClass source decl = .component c := by
  unfold component? at accepted
  rw [cls, Option.map_some] at accepted
  cases reads : readClass source decl <;> rw [reads] at accepted <;> cases accepted
  rfl

theorem component?_eq_none {statement : Stmt} :
    component? source statement = none ↔
      ∀ decl, class? statement = some decl → isComponent source decl = false := by
  unfold component? isComponent
  cases class? statement with
  | none => simp
  | some decl =>
      simp only [Option.map_some, Option.some.injEq, forall_eq']
      cases readClass source decl <;> simp

theorem forall_component?_eq_none {body : List Stmt} :
    (∀ s ∈ body, component? source s = none) ↔
      ∀ decl ∈ classes body, isComponent source decl = false := by
  simp only [component?_eq_none, classes, List.mem_filterMap]
  constructor
  · rintro h decl ⟨s, mem, cls⟩
    exact h s mem decl cls
  · intro h s mem decl cls
    exact h decl ⟨s, mem, cls⟩

/-- A component has the name of its class, which is a name. -/
theorem isBindingName_of_component {decl : ClassDef} {c : Component}
    (h : readClass source decl = .component c) : isBindingName c.className = true := by
  have named := decl.named
  obtain ⟨name, eq, className⟩ := Option.map_eq_some_iff.mp (isReadAs_of_component h).name
  rw [eq] at named
  rw [← className]
  exact named

/-- What the classes of some components use of the core module, added to what is used already. -/
def usedBy (components : List Component) (u : CoreUse) : CoreUse where
  registerInstance := u.registerInstance || !components.isEmpty
  getElement := u.getElement || components.any fun c => !c.elementMembers.isEmpty

theorem usedBy_append (components more : List Component) (u : CoreUse) :
    usedBy (components ++ more) u = usedBy more (usedBy components u) := by
  cases components <;> simp [usedBy, Bool.or_assoc]

@[simp]
theorem usedBy_nil (u : CoreUse) : usedBy [] u = u := by simp [usedBy]

/-! ### One class -/

/-- Moving comments touches neither the style sheets nor the core functions. -/
theorem moveComments_used (s : ModuleState) (source target : Nat) :
    (s.moveComments source target).used = s.used ∧
      (s.moveComments source target).styles = s.styles := by
  unfold ModuleState.moveComments
  split <;> exact ⟨rfl, rfl⟩

theorem moveFieldComments_used (offset : Nat) (members : List Member) (s : ModuleState) :
    (moveFieldComments offset members s).2.used = s.used ∧
      (moveFieldComments offset members s).2.styles = s.styles := by
  unfold moveFieldComments
  split
  · exact moveComments_used s _ _
  · split
    · exact ⟨rfl, rfl⟩
    · split
      · exact ⟨rfl, rfl⟩
      · split
        · exact moveComments_used s _ _
        · exact moveComments_used s _ _

theorem moveAllComments_used (offsets : List Nat) (members : List Member) (s : ModuleState) :
    (moveAllComments offsets members s).2.used = s.used ∧
      (moveAllComments offsets members s).2.styles = s.styles := by
  induction offsets generalizing members s with
  | nil => exact ⟨rfl, rfl⟩
  | cons offset rest ih =>
      obtain ⟨used, styles⟩ := moveFieldComments_used offset members s
      obtain ⟨used', styles'⟩ := ih (moveFieldComments offset members s).1
        (moveFieldComments offset members s).2
      exact ⟨used'.trans used, styles'.trans styles⟩

/-- Lowering a class uses core functions and leaves the style sheets alone. -/
theorem lowerClass_state {decl : ClassDef} {c : Component} {s : ModuleState}
    {lowered : LoweredClass} (h : lowerClass decl c s = .ok lowered) :
    lowered.state.used = usedBy [c] s.used ∧ lowered.state.styles = s.styles := by
  unfold lowerClass at h
  obtain ⟨constructed, _, h⟩ := ok_of_bind h
  obtain ⟨used, styles⟩ := moveAllComments_used (loweredOffsets c decl.members) constructed.members
    (s.useCore .registerInstance)
  have state : lowered.state =
      if c.elementMembers.isEmpty then
        (moveAllComments (loweredOffsets c decl.members) constructed.members
          (s.useCore .registerInstance)).2
      else
        (moveAllComments (loweredOffsets c decl.members) constructed.members
          (s.useCore .registerInstance)).2.useCore .getElement := by
    dsimp only at h
    split at h
    · cases h
      rfl
    · obtain ⟨added, _, h⟩ := ok_of_bind h
      cases h
      rfl
  rw [state]
  split
  · rename_i none
    exact ⟨by rw [used]; simp [usedBy, ModuleState.useCore, CoreUse.insert, none], styles⟩
  · rename_i some
    refine ⟨?_, styles⟩
    rw [ModuleState.useCore, used]
    simp [usedBy, ModuleState.useCore, CoreUse.insert, some]

/-! ### One statement -/

/-- The style sheets that are attached to the class of a component, if any are. -/
def attached? (options : Options) (c : Component) : Option Refs :=
  match options.style with
  | .static => c.styles.filter fun refs => !refs.isEmpty
  | .none => none

/-- The class statement that is emitted for a component whose lowered class is given. -/
def emitted (options : Options) (className : String) (named : isBindingName className = true)
    (lowered : ClassDef) (statement : Stmt) : Stmt :=
  shaped className named lowered statement (classShape options statement)

/-- What a statement contributes to the body of the lowered module. -/
inductive Contributes (source : List Char) (options : Options) : Stmt → List Stmt → Prop
  /-- A statement that declares no component contributes itself. -/
  | unchanged {statement : Stmt} (other : component? source statement = none) :
      Contributes source options statement [statement]
  /-- A component contributes its class statement. -/
  | plain {statement : Stmt} {c : Component} {decl : ClassDef} {s : ModuleState}
      {lowered : LoweredClass} (accepted : component? source statement = some c)
      (named : isBindingName c.className = true) (cls : class? statement = some decl)
      (lowers : lowerClass decl c s = .ok lowered) (styles : attached? options c = none) :
      Contributes source options statement
        [emitted options c.className named lowered.decl (withClass lowered.decl statement)]
  /-- A component with styles contributes an assignment behind its class statement. -/
  | styled {statement : Stmt} {c : Component} {decl : ClassDef} {s : ModuleState}
      {lowered : LoweredClass} {refs : Refs} {bindings : List Binding}
      (accepted : component? source statement = some c)
      (named : isBindingName c.className = true) (cls : class? statement = some decl)
      (lowers : lowerClass decl c s = .ok lowered) (styles : attached? options c = some refs)
      (keys : bindings.map (·.key) = refs.entries.map (·.key)) :
      Contributes source options statement
        [emitted options c.className named lowered.decl (withClass lowered.decl statement),
          styleAssignment c.className (styleTree refs bindings)]

/-- The statements behind the class statement of a component: an assignment if styles are attached. -/
inductive Assigns (options : Options) (c : Component) : List Stmt → Prop
  | none (styles : attached? options c = none) : Assigns options c []
  | some {refs : Refs} {bindings : List Binding} (styles : attached? options c = some refs)
      (keys : bindings.map (·.key) = refs.entries.map (·.key)) :
      Assigns options c [styleAssignment c.className (styleTree refs bindings)]

theorem Assigns.eq_expression {c : Component} {assigned : List Stmt} {t : Stmt}
    (h : Assigns options c assigned) (mem : t ∈ assigned) :
    ∃ value, t = .expression .detached value := by
  cases h with
  | none styles => cases mem
  | some styles keys => exact ⟨_, List.mem_singleton.mp mem⟩

/-- What a statement contributes, told apart by whether it declares a component. -/
theorem contributes_cases {statement : Stmt} {piece : List Stmt}
    (h : Contributes source options statement piece) :
    (component? source statement = none ∧ piece = [statement]) ∨
      ∃ (c : Component) (named : isBindingName c.className = true) (decl : ClassDef)
        (s : ModuleState) (lowered : LoweredClass) (assigned : List Stmt),
        component? source statement = some c ∧ class? statement = some decl ∧
        lowerClass decl c s = .ok lowered ∧ Assigns options c assigned ∧
        piece = emitted options c.className named lowered.decl (withClass lowered.decl statement) ::
          assigned := by
  cases h with
  | unchanged other => exact .inl ⟨other, rfl⟩
  | plain accepted named cls lowers styles =>
      exact .inr ⟨_, named, _, _, _, [], accepted, cls, lowers, .none styles, rfl⟩
  | styled accepted named cls lowers styles keys =>
      exact .inr ⟨_, named, _, _, _, _, accepted, cls, lowers, .some styles keys, rfl⟩

theorem class?_withClass {statement : Stmt} {decl : ClassDef} (new : ClassDef)
    (h : class? statement = some decl) : class? (withClass new statement) = some new := by
  cases statement with
  | classDecl old => rfl
  | exportDecl span inner => cases inner <;> first | rfl | cases h
  | exportDefault span inner => cases inner <;> first | rfl | cases h
  | _ => cases h

/-- Another class in its place leaves the export of a statement as it is. -/
theorem isExport_withClass (new : ClassDef) (statement : Stmt) :
    isNamedExport (withClass new statement) = isNamedExport statement ∧
      isDefaultExport (withClass new statement) = isDefaultExport statement := by
  cases statement with
  | exportDecl span inner => cases inner <;> exact ⟨rfl, rfl⟩
  | exportDefault span inner => cases inner <;> exact ⟨rfl, rfl⟩
  | _ => exact ⟨rfl, rfl⟩

theorem classShape_withClass (options : Options) (new : ClassDef) (statement : Stmt) :
    classShape options (withClass new statement) = classShape options statement := by
  obtain ⟨named, default⟩ := isExport_withClass new statement
  unfold classShape
  rw [named, default]

/-- What lowering some statements does to the state, and what it yields besides statements. -/
structure Lowers (source : List Char) (options : Options) (body : List Stmt) (s : ModuleState)
    (lowered : LoweredBody) : Prop where
  pieces : ∃ pieces, List.Forall₂ (Contributes source options) body pieces ∧
    lowered.statements = pieces.flatten
  styles : Hoists options.convention s.styles lowered.state.styles lowered.styleImports
  used : lowered.state.used = usedBy (body.filterMap (component? source)) s.used
  components : lowered.report.components =
    (body.filterMap (component? source)).map fun c => { className := c.className, tag := c.tag }

theorem attached?_nonempty {c : Component} {refs : Refs} (h : attached? options c = some refs) :
    refs.isEmpty = false := by
  unfold attached? at h
  split at h
  · simpa using (Option.filter_eq_some_iff.mp h).2
  · cases h

/-- Some styles are some entries. -/
theorem entries_ne_nil {refs : Refs} (h : refs.isEmpty = false) : refs.entries ≠ [] := by
  cases refs with
  | sequence paths => cases paths <;> simp_all [Refs.isEmpty, Refs.entries]
  | mapping pairs =>
      cases pairs with
      | nil => cases h
      | cons p rest =>
          have insert (ps : List (String × String)) : insertPair p ps ≠ [] := by
            cases ps with
            | nil => simp [insertPair]
            | cons q ps =>
                unfold insertPair
                split <;> simp
          simp [Refs.entries, sortPairs, insert]

/-- Styles are planned for a component exactly if they are attached to it. -/
theorem planStyles_eq (options : Options) (c : Component) (l : Ledger) :
    planStyles options c l =
      match attached? options c with
      | none => (none, l)
      | some refs => plan c.className refs options.convention l := by
  unfold planStyles attached?
  cases options.style with
  | none => rfl
  | static =>
      cases c.styles with
      | none => rfl
      | some refs =>
          cases empty : refs.isEmpty <;> simp [Option.filter, empty, plan]

/-- Attaching style sheets to a class is planned as one assignment that names all of them. -/
theorem planStyles_attached {c : Component} {refs : Refs} {l : Ledger} (named : l.IsNamed)
    (word : isWordText c.className = true) (attached : attached? options c = some refs) :
    ∃ texts bindings ledger,
      planStyles options c l =
        (some ⟨texts, c.className ++ ".style = " ++ styleValue refs bindings ++ ";"⟩, ledger) ∧
      Hoists options.convention l ledger texts ∧ (∀ b ∈ bindings, IsSheetName b.name) ∧
      bindings.map (·.key) = refs.entries.map (·.key) ∧ bindings ≠ [] ∧
      BindsEntries refs.entries ledger.sheets bindings := by
  have nonempty := attached?_nonempty attached
  obtain ⟨hoists, names, keys⟩ := named.hoistAll word options.convention refs.entries
  have binds := named.bindsEntries_hoistAll word options.convention refs.entries
  refine ⟨_, _, _, ?_, hoists, names, keys, fun none => ?_, binds⟩
  · rw [planStyles_eq, attached]
    simp only [plan, nonempty, Bool.false_eq_true, ↓reduceIte]
  · rw [none, List.map_nil] at keys
    exact entries_ne_nil nonempty (List.map_eq_nil_iff.mp keys.symm)

theorem lowers_unchanged {statement : Stmt} {s : ModuleState} {diagnostics : List Diagnostic}
    (other : component? source statement = none) (named : s.styles.IsNamed) :
    Lowers source options [statement] s (unchanged s statement diagnostics) where
  pieces := ⟨[[statement]], .cons (.unchanged other) .nil, rfl⟩
  styles := .refl named
  used := by simp [other, unchanged]
  components := by simp [other, unchanged]

/-- The state in which a component is lowered: the comments in front of it have moved. -/
def movedState (statement : Stmt) (s : ModuleState) : ModuleState :=
  match componentOffset? statement with
  | some offset => s.moveComments offset statement.span.start
  | none => s

theorem movedState_used (statement : Stmt) (s : ModuleState) :
    (movedState statement s).used = s.used ∧ (movedState statement s).styles = s.styles := by
  unfold movedState
  split
  · exact moveComments_used s _ _
  · exact ⟨rfl, rfl⟩

/-- The parts of a component that was lowered. -/
theorem lowerComponent_ok {statement : Stmt} {decl : ClassDef} {c : Component} {s : ModuleState}
    {result : LoweredBody} (h : Gives (lowerComponent options statement decl c s) result) :
    ∃ lowered new assignment,
      lowerClass decl c (movedState statement s) = .ok lowered ∧
      shapeClass options c.className (withClass lowered.decl statement) = .ok new ∧
      (match (planStyles options c lowered.state.styles).1 with
        | some p => ∃ t, Code.statement p.assignment = .ok t ∧ assignment = [t]
        | none => assignment = []) ∧
      result.state =
        { lowered.state with styles := (planStyles options c lowered.state.styles).2 } ∧
      result.statements = new :: assignment ∧
      result.styleImports =
        ((planStyles options c lowered.state.styles).1.map (·.imports)).getD [] ∧
      result.report =
        { components := [{ className := c.className, tag := c.tag }]
          diagnostics := c.warnings ++ lowered.warnings } := by
  unfold lowerComponent at h
  obtain ⟨_, _, h⟩ := gives_bind h
  obtain ⟨_, _, h⟩ := gives_bind h
  obtain ⟨lowered, lowers, h⟩ := gives_bind h
  obtain ⟨_, _, h⟩ := gives_bind h
  obtain ⟨new, shapes, h⟩ := gives_bind h
  rw [gives_lift] at lowers shapes
  refine ⟨lowered, new, ?_⟩
  rcases plans : planStyles options c lowered.state.styles with ⟨_ | p, ledger⟩
  · rw [plans] at h
    obtain ⟨assignment, eq, h⟩ := gives_bind h
    rw [gives_pure] at eq h
    subst eq h
    exact ⟨[], lowers, shapes, rfl, rfl, rfl, rfl, rfl⟩
  · rw [plans] at h
    obtain ⟨t, read, h⟩ := gives_bind h
    obtain ⟨assignment, eq, h⟩ := gives_bind h
    rw [gives_lift] at read
    rw [gives_pure] at eq h
    subst eq h
    exact ⟨[t], lowers, shapes, ⟨t, read, rfl⟩, rfl, rfl, rfl, rfl⟩

/-- A component leads to one class statement, and to one assignment if it has styles. -/
theorem lowers_component {statement : Stmt} {decl : ClassDef} {c : Component} {s : ModuleState}
    {result : LoweredBody} (cls : class? statement = some decl)
    (reads : readClass source decl = .component c) (named : s.styles.IsNamed)
    (h : Gives (lowerComponent options statement decl c s) result) :
    Lowers source options [statement] s result := by
  have accepted : component? source statement = some c := by simp [component?, cls, reads]
  have binding := isBindingName_of_component reads
  have word := isWordText_of_isBindingName binding
  obtain ⟨movedUsed, movedStyles⟩ := movedState_used statement s
  obtain ⟨lowered, new, assignment, lowers, shapes, assigns, state, statements, imports, report⟩ :=
    lowerComponent_ok h
  obtain ⟨used, styles⟩ := lowerClass_state lowers
  rw [movedStyles] at styles
  obtain rfl := shapeClass_ok binding (class?_withClass lowered.decl cls) shapes
  rw [styles] at assigns state imports
  have usedHere : result.state.used = usedBy ([statement].filterMap (component? source)) s.used := by
    rw [state]
    simpa [accepted, movedUsed] using used
  have componentsHere : result.report.components =
      ([statement].filterMap (component? source)).map fun c =>
        { className := c.className, tag := c.tag } := by
    rw [report]
    simp [accepted]
  cases attached : attached? options c with
  | none =>
      simp only [planStyles_eq, attached] at assigns state imports
      subst assigns
      refine ⟨⟨[[_]], .cons (.plain accepted binding cls lowers attached) .nil, ?_⟩, ?_, usedHere,
        componentsHere⟩
      · rw [statements]
        rfl
      · rw [state, imports]
        exact .refl named
  | some refs =>
      obtain ⟨texts, bindings, ledger, plans, hoists, names, keys, nonempty, -⟩ :=
        planStyles_attached named word attached
      rw [plans] at assigns state imports
      obtain ⟨t, read, rfl⟩ := assigns
      obtain rfl := eq_styleAssignment_of_ok binding names nonempty read
      refine ⟨⟨[[_, _]], .cons (.styled accepted binding cls lowers attached keys) .nil, ?_⟩, ?_,
        usedHere, componentsHere⟩
      · rw [statements]
        rfl
      · rw [state, imports]
        exact hoists

/-- What one statement does. -/
theorem lowers_statement {statement : Stmt} {s : ModuleState} {result : LoweredBody}
    (named : s.styles.IsNamed) (h : Gives (lowerStatement source options statement s) result) :
    Lowers source options [statement] s result := by
  unfold lowerStatement at h
  cases cls : class? statement with
  | none =>
      rw [cls] at h
      obtain rfl := gives_pure.mp h
      exact lowers_unchanged (by simp [component?, cls]) named
  | some decl =>
      simp only [cls] at h
      cases reads : readClass source decl with
      | plain =>
          rw [reads] at h
          obtain rfl := gives_pure.mp h
          exact lowers_unchanged (by simp [component?, cls, reads]) named
      | skipped reason =>
          rw [reads] at h
          obtain ⟨_, _, h⟩ := gives_bind h
          obtain rfl := gives_pure.mp h
          exact lowers_unchanged (by simp [component?, cls, reads]) named
      | component c =>
          rw [reads] at h
          exact lowers_component cls reads named h

/-! ### All statements -/

/-- What statements do one after the other. -/
theorem lowers_statements {body : List Stmt} {s : ModuleState} {result : LoweredBody}
    (named : s.styles.IsNamed) (h : Gives (lowerStatements source options body s) result) :
    Lowers source options body s result := by
  induction body generalizing s result with
  | nil =>
      obtain rfl := gives_pure.mp h
      exact ⟨⟨[], .nil, rfl⟩, .refl named, by simp, rfl⟩
  | cons statement rest ih =>
      obtain ⟨here, first, h⟩ := gives_bind h
      obtain ⟨more, later, h⟩ := gives_bind h
      obtain rfl := gives_pure.mp h
      have one := lowers_statement named first
      have all := ih one.styles.named later
      obtain ⟨piece, contributes, statements⟩ := one.pieces
      obtain ⟨pieces, contribute, statements'⟩ := all.pieces
      have split : (statement :: rest).filterMap (component? source) =
          [statement].filterMap (component? source) ++ rest.filterMap (component? source) := by
        rw [← List.filterMap_append, List.singleton_append]
      refine ⟨⟨piece ++ pieces, ?_, ?_⟩, one.styles.trans all.styles, ?_, ?_⟩
      · exact List.rel_append contributes contribute
      · rw [List.flatten_append, statements, statements']
      · rw [split, usedBy_append, ← one.used, all.used]
      · rw [split, List.map_append, ← one.components, ← all.components]
        rfl

end ComponentLowering.Lowering
