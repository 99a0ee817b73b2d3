/-
# Lowering twice

A lowered module holds no component, so lowering its tree again would change nothing.  Its text is
read anew, though, and the reader of annotations tells an argument in parentheses from one without
them, while the printer drops parentheses that it does not need.  A class that was skipped for its
parentheses is a component in the second run.
-/
import ComponentLowering.Proofs.Component.Outline
import ComponentLowering.Proofs.Lowering.DroppedImports
import ComponentLowering.Proofs.Lowering.LoweredClasses

namespace ComponentLowering.Lowering

open ComponentLowering.Component ComponentLowering.Report ComponentLowering.Settings
open ComponentLowering.Style ComponentLowering.Syntax

variable {source : List Char} {options : Options} {file : String}

/-! ### Modules without components -/

/-- A statement without a component is lowered, and yields none. -/
theorem lowerStatement_of_none (options : Options) {statement : Stmt} (h : component? source statement = none)
    (s : ModuleState) (log : Log) :
    ∃ lowered log', (lowerStatement source options statement s).run.run log = (.ok lowered, log') ∧
      lowered.report.components = [] := by
  unfold lowerStatement
  cases cls : class? statement with
  | none => exact ⟨_, log, rfl, rfl⟩
  | some decl =>
      have other := component?_eq_none.mp h decl cls
      unfold isComponent at other
      dsimp only
      cases read : readClass source decl with
      | plain => exact ⟨_, log, rfl, rfl⟩
      | skipped reason => exact ⟨_, _, rfl, rfl⟩
      | component c =>
          rw [read] at other
          cases other

/-- Statements without components are lowered, and yield none. -/
theorem lowerStatements_of_none (options : Options) {body : List Stmt}
    (h : ∀ s ∈ body, component? source s = none) (s : ModuleState) (log : Log) :
    ∃ lowered log', (lowerStatements source options body s).run.run log = (.ok lowered, log') ∧
      lowered.report.components = [] := by
  induction body generalizing s log with
  | nil => exact ⟨_, log, rfl, rfl⟩
  | cons statement rest ih =>
      rw [List.forall_mem_cons] at h
      obtain ⟨here, between, first, empty⟩ := lowerStatement_of_none options h.1 s log
      obtain ⟨more, log', later, empty'⟩ := ih h.2 here.state between
      unfold lowerStatements
      rw [run_bind first, run_bind later]
      refine ⟨_, log', rfl, ?_⟩
      show here.report.components ++ more.report.components = []
      rw [empty, empty', List.append_nil]

/-! ### Texts -/

/-- The output for a text is that of its module. -/
theorem runLowering_eq {code : String} {m lowered : Module} {report : LoweringReport} {log : Log}
    (read : Module.read (.ofPath file) code.toList = .ok m)
    (lowers : (lowerModule options m).run.run [] = (.ok (report, lowered), log)) :
    runLowering options file code =
      (.ok { code := if report.components.isEmpty then code else lowered.print, report }, log) := by
  unfold runLowering lowerText
  rw [read]
  dsimp only
  rw [run_bind lowers]
  rfl

/-- A text that is lowered can be read, and its module is lowered. -/
theorem runLowering_ok {code : String} {out : Output} {log : Log}
    (run : runLowering options file code = (.ok out, log)) :
    ∃ m lowered, Module.read (.ofPath file) code.toList = .ok m ∧
      (lowerModule options m).run.run [] = (.ok (out.report, lowered), log) ∧
      out.code = if out.report.components.isEmpty then code else lowered.print := by
  cases read : Module.read (.ofPath file) code.toList with
  | error e =>
      unfold runLowering lowerText at run
      rw [read] at run
      cases (Prod.mk.inj run).1
  | ok m =>
      rcases lowers : (lowerModule options m).run.run [] with ⟨failure | ⟨report, lowered⟩, log'⟩
      · unfold runLowering lowerText at run
        rw [read] at run
        dsimp only at run
        rw [ExceptT.run_bind, StateT.run_bind, lowers] at run
        cases (Prod.mk.inj run).1
      · rw [runLowering_eq read lowers] at run
        cases run
        exact ⟨m, lowered, rfl, lowers, rfl⟩

/-- Whether lowering a text succeeds, finds no component and gives the text back. -/
def IsNoOp (options : Options) (file code : String) : Prop :=
  ∃ out log, runLowering options file code = (.ok out, log) ∧ out.report.components = [] ∧
    out.code = code

/-- Nothing happens to a text exactly if it can be read and no class of it is a component. -/
theorem isNoOp_iff {code : String} :
    IsNoOp options file code ↔
      ∃ m, Module.read (.ofPath file) code.toList = .ok m ∧
        ∀ decl ∈ classes m.body, isComponent m.source decl = false := by
  simp only [← forall_component?_eq_none]
  constructor
  · rintro ⟨out, log, run, empty, -⟩
    obtain ⟨m, lowered, read, lowers, -⟩ := runLowering_ok run
    refine ⟨m, read, ?_⟩
    obtain ⟨body, lowersBody, report, -⟩ := lowerModule_ok ⟨[], log, lowers⟩
    have components := (lowers_statements (initialState_eq m.body).1 lowersBody).components
    rw [report, empty] at components
    rw [← List.filterMap_eq_nil_iff]
    exact List.map_eq_nil_iff.mp components.symm
  · rintro ⟨m, read, none⟩
    obtain ⟨lowered, log, run, empty⟩ :=
      lowerStatements_of_none options none (initialState m.body) []
    have whole : (lowerModule options m).run.run [] = (.ok (lowered.report, m), log) := by
      unfold lowerModule
      rw [run_bind run, empty]
      rfl
    refine ⟨_, log, runLowering_eq read whole, empty, ?_⟩
    rw [empty]
    rfl

/-! ### Classes of lowered modules -/

/-- A class that is still declared by an emitted statement has the decorators of the lowered class. -/
theorem decorators_of_emitted {className : String} {named : isBindingName className = true}
    {lowered decl : ClassDef} {statement : Stmt} (cls : class? statement = some lowered)
    (h : class? (emitted options className named lowered statement) = some decl) :
    decl.decorators = lowered.decorators := by
  unfold emitted shaped at h
  split at h
  · split at h <;> cases h
  · cases h
    rfl
  · rw [cls] at h
    cases h
    rfl

/-- The classes that the piece of a statement declares: its class if that is no component, and classes
without component decorators otherwise. -/
theorem classes_of_contributes {statement : Stmt} {piece : List Stmt}
    (h : Contributes source options statement piece) :
    (component? source statement = none ∧ piece = [statement]) ∨
      ((component? source statement).isSome = true ∧
        ∀ decl ∈ classes piece, ∀ d ∈ decl.decorators, isComponentDecorator d = false) := by
  have removed {decl old : ClassDef} {c : Component} {s : ModuleState} {lowered : LoweredClass}
      {className : String} {named : isBindingName className = true}
      (cls : class? statement = some old) (lowers : lowerClass old c s = .ok lowered)
      (h : class? (emitted options className named lowered.decl
        (withClass lowered.decl statement)) = some decl) :
      ∀ d ∈ decl.decorators, isComponentDecorator d = false := by
    rw [decorators_of_emitted (class?_withClass _ cls) h, (lowerClass_ok lowers).decorators]
    intro d mem
    simpa using (List.mem_filter.mp mem).2
  cases h with
  | unchanged other => exact .inl ⟨other, rfl⟩
  | plain accepted named cls lowers styles =>
      refine .inr ⟨by rw [accepted]; rfl, fun decl mem => ?_⟩
      obtain ⟨s, here, declares⟩ := List.mem_filterMap.mp mem
      cases List.mem_singleton.mp here
      exact removed cls lowers declares
  | styled accepted named cls lowers styles keys =>
      refine .inr ⟨by rw [accepted]; rfl, fun decl mem => ?_⟩
      obtain ⟨s, here, declares⟩ := List.mem_filterMap.mp mem
      rcases List.mem_cons.mp here with rfl | here
      · exact removed cls lowers declares
      · cases List.mem_singleton.mp here
        cases declares

theorem mem_classes_append {body more : List Stmt} {decl : ClassDef} :
    decl ∈ classes (body ++ more) ↔ decl ∈ classes body ∨ decl ∈ classes more := by
  unfold classes
  rw [List.filterMap_append, List.mem_append]

/-- The classes that the pieces of statements declare: the ones that are no components, and classes
without component decorators. -/
theorem classes_of_pieces {body : List Stmt} {pieces : List (List Stmt)}
    (h : List.Forall₂ (Contributes source options) body pieces) :
    (∀ decl ∈ classes pieces.flatten,
        decl ∈ classes body ∧ isComponent source decl = false ∨
          ∀ d ∈ decl.decorators, isComponentDecorator d = false) ∧
      ∀ decl ∈ classes body, isComponent source decl = false → decl ∈ classes pieces.flatten := by
  induction h with
  | nil => exact ⟨fun _ mem => absurd mem List.not_mem_nil, fun _ mem => absurd mem List.not_mem_nil⟩
  | @cons statement piece rest pieces contributes _ ih =>
      obtain ⟨behind, kept⟩ := ih
      rw [List.flatten_cons, ← List.singleton_append]
      simp only [mem_classes_append]
      rcases classes_of_contributes contributes with ⟨other, rfl⟩ | ⟨accepted, without⟩
      · constructor
        · rintro decl (here | later)
          · obtain ⟨s, mem, cls⟩ := List.mem_filterMap.mp here
            cases List.mem_singleton.mp mem
            exact .inl ⟨.inl here, component?_eq_none.mp other decl cls⟩
          · exact (behind decl later).imp_left fun h => ⟨.inr h.1, h.2⟩
        · rintro decl (here | later) plain
          · exact .inl here
          · exact .inr (kept decl later plain)
      · constructor
        · rintro decl (here | later)
          · exact .inr (without decl here)
          · exact (behind decl later).imp_left fun h => ⟨.inr h.1, h.2⟩
        · rintro decl (here | later) plain
          · obtain ⟨s, mem, cls⟩ := List.mem_filterMap.mp here
            cases List.mem_singleton.mp mem
            have none : component? source statement = none :=
              component?_eq_none.mpr fun d cls' => by
                rw [cls] at cls'
                cases cls'
                exact plain
            rw [none] at accepted
            cases accepted
          · exact .inr (kept decl later plain)

/-- The classes of a lowered module with components. -/
theorem classes_lowerModule {m lowered : Module} {report : LoweringReport}
    (h : Gives (lowerModule options m) (report, lowered)) (nonempty : report.components ≠ []) :
    (∀ decl ∈ classes lowered.body,
        decl ∈ classes m.body ∧ isComponent m.source decl = false ∨
          ∀ d ∈ decl.decorators, isComponentDecorator d = false) ∧
      ∀ decl ∈ classes m.body, isComponent m.source decl = false → decl ∈ classes lowered.body := by
  obtain ⟨_, pieces, _, contribute, _, body⟩ := lowerModule_body h nonempty
  rw [body]
  simp only [mem_classes_withImports]
  exact classes_of_pieces contribute

/-! ### The second run -/

/-- How the classes of a module are read back from its printed text: each as it was printed, in the
same order, but without parentheses in the arguments of its decorators.  The parser keeps parentheses
as expressions of their own; the printer decides alone where to write them, and writes none around
the literals that an annotation consists of. -/
def ReadsBack (body again : List Stmt) : Prop :=
  (classes again).map outline = (classes body).map fun decl => outline (bareClass decl)

instance (body again : List Stmt) : Decidable (ReadsBack body again) :=
  inferInstanceAs (Decidable (_ = _))

theorem isComponent_readBack {body again : List Stmt} (back : ReadsBack body again)
    (text text' : List Char) :
    (∀ decl ∈ classes again, isComponent text decl = false) ↔
      ∀ decl ∈ classes body, isComponent text' (bareClass decl) = false := by
  have outlines (l : List ClassDef) (f : ClassDef → ClassOutline) :
      (∀ c ∈ l.map f, c.isComponent = false) ↔ ∀ decl ∈ l, (f decl).isComponent = false :=
    List.forall_mem_map
  simp only [isComponent_eq]
  rw [← outlines, ← outlines (classes body) fun decl => outline (bareClass decl), back]

/-- Lowering twice.  A text without components comes back as it is.  In what any other text is lowered
to, no class is a component any more, and the second run is a no-op if and only if the printed text can
be read and its classes are no components either.  Where they are read back as they were printed, that
is the case if and only if no class that the first run left alone is a component once the parentheses
in the arguments of its decorators are dropped. -/
theorem secondRun_isNoOp_iff {text : String} {out : Output} {log : Log}
    (run : runLowering options file text = (.ok out, log)) :
    (out.report.components = [] → IsNoOp options file out.code) ∧
      (out.report.components ≠ [] → ∃ m lowered,
        Module.read (.ofPath file) text.toList = .ok m ∧
        (lowerModule options m).run.run [] = (.ok (out.report, lowered), log) ∧
        out.code = lowered.print ∧
        (∀ decl ∈ classes lowered.body, isComponent m.source decl = false) ∧
        (IsNoOp options file out.code ↔
          ∃ again, Module.read (.ofPath file) out.code.toList = .ok again ∧
            ∀ decl ∈ classes again.body, isComponent again.source decl = false) ∧
        ∀ again, Module.read (.ofPath file) out.code.toList = .ok again →
          ReadsBack lowered.body again.body →
          (IsNoOp options file out.code ↔
            ∀ decl ∈ classes m.body, isComponent m.source decl = false →
              isComponent m.source (bareClass decl) = false)) := by
  obtain ⟨m, lowered, read, lowers, code⟩ := runLowering_ok run
  constructor
  · intro empty
    rw [empty] at code
    exact ⟨out, log, code ▸ run, empty, rfl⟩
  · intro nonempty
    rw [if_neg (by simpa using nonempty)] at code
    obtain ⟨left, kept⟩ := classes_lowerModule ⟨[], log, lowers⟩ nonempty
    refine ⟨m, lowered, read, lowers, code, ?_, ?_, ?_⟩
    · intro decl mem
      rcases left decl mem with ⟨_, plain⟩ | without
      · exact plain
      · exact isComponent_of_not_mem without
    · exact isNoOp_iff
    · intro again readable back
      have whole : IsNoOp options file out.code ↔
          ∀ decl ∈ classes again.body, isComponent again.source decl = false := by
        rw [isNoOp_iff]
        constructor
        · rintro ⟨again', readable', none⟩
          rw [readable] at readable'
          cases readable'
          exact none
        · exact fun none => ⟨again, readable, none⟩
      rw [whole, isComponent_readBack back _ m.source]
      constructor
      · exact fun none decl mem plain => none decl (kept decl mem plain)
      · intro none decl mem
        rcases left decl mem with ⟨here, plain⟩ | without
        · exact none decl here plain
        · refine isComponent_of_not_mem fun d mem => ?_
          obtain ⟨d, here, rfl⟩ := List.mem_map.mp mem
          rw [isComponentDecorator_bareDecorator]
          exact without d here

/-! ### A class that was skipped for its parentheses -/

/-- A module with a component and with a class whose configuration stands in parentheses. -/
def wrapped : String :=
  "@Component(\x7b tag: 'a-a' \x7d)\nclass A \x7b\x7d\n@Component((\x7b tag: 'b-b' \x7d))\nclass B \x7b\x7d\n"

/-- Whether a component of a module is lowered, and its text is read back with a component in it. -/
def reappears (options : Options) (file : String) (m : Module) : Bool :=
  match (lowerModule options m).run.run [] with
  | (.ok (report, lowered), _) =>
    match Module.read (.ofPath file) lowered.print.toList with
    | .ok again =>
      !report.components.isEmpty && decide (ReadsBack lowered.body again.body) &&
        (classes again.body).any (isComponent again.source)
    | .error _ => false
  | _ => false

theorem wrapped_read :
    ∃ m, Module.read (.ofPath "a.ts") wrapped.toList = .ok m ∧ reappears defaults "a.ts" m = true :=
  exists_of_read (by decide +kernel)

theorem of_reappears {m : Module} (h : reappears options file m = true) :
    ∃ report lowered log again,
      (lowerModule options m).run.run [] = (.ok (report, lowered), log) ∧ report.components ≠ [] ∧
      Module.read (.ofPath file) lowered.print.toList = .ok again ∧
      ReadsBack lowered.body again.body ∧
      ∃ decl ∈ classes again.body, isComponent again.source decl = true := by
  unfold reappears at h
  split at h
  · rename_i report lowered log run
    split at h
    · rename_i again readable
      simp only [Bool.and_eq_true, decide_eq_true_eq, List.any_eq_true] at h
      obtain ⟨⟨nonempty, back⟩, component⟩ := h
      exact ⟨report, lowered, log, again, run, by simpa using nonempty, readable, back, component⟩
    · cases h
  · cases h

/-- The class that was skipped is a component in the second run. -/
theorem wrapped_isComponent :
    ∃ out log, runLowering defaults "a.ts" wrapped = (.ok out, log) ∧
      ¬ IsNoOp defaults "a.ts" out.code := by
  obtain ⟨m, read, again⟩ := wrapped_read
  obtain ⟨report, lowered, log, again, lowers, nonempty, readable, _, decl, mem, component⟩ :=
    of_reappears again
  refine ⟨_, log, runLowering_eq read lowers, ?_⟩
  rw [if_neg (by simpa using nonempty)]
  rintro noOp
  obtain ⟨again', readable', none⟩ := isNoOp_iff.mp noOp
  rw [readable] at readable'
  cases readable'
  rw [none decl mem] at component
  cases component

/-- The module is lowered and read back, so it is known when the second run is a no-op. -/
theorem wrapped_secondRun :
    ∃ out log m lowered again, runLowering defaults "a.ts" wrapped = (.ok out, log) ∧
      Module.read (.ofPath "a.ts") wrapped.toList = .ok m ∧
      (lowerModule defaults m).run.run [] = (.ok (out.report, lowered), log) ∧
      out.report.components ≠ [] ∧
      Module.read (.ofPath "a.ts") out.code.toList = .ok again ∧
      ReadsBack lowered.body again.body ∧
      (IsNoOp defaults "a.ts" out.code ↔
        ∀ decl ∈ classes m.body, isComponent m.source decl = false →
          isComponent m.source (bareClass decl) = false) := by
  obtain ⟨m, read, again⟩ := wrapped_read
  obtain ⟨report, lowered, log, again, lowers, nonempty, readable, back, _⟩ := of_reappears again
  have run := runLowering_eq read lowers
  rw [if_neg (by simpa using nonempty)] at run
  obtain ⟨m', lowered', read', lowers', code, _, _, whenever⟩ :=
    (secondRun_isNoOp_iff run).2 nonempty
  rw [read] at read'
  cases read'
  rw [lowers] at lowers'
  cases lowers'
  exact ⟨_, log, m, lowered, again, run, read, lowers, nonempty, readable, back,
    whenever again readable back⟩

end ComponentLowering.Lowering
