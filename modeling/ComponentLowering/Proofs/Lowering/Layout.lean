/-
# The layout of a lowered module

The body of a lowered module is the pieces that its statements contribute, less the imports that
are stale, with the imports that lowering needs in their places.
-/
import ComponentLowering.Proofs.Lowering.CoreBinding
import ComponentLowering.Proofs.Lowering.Emission

namespace ComponentLowering.Lowering

open ComponentLowering.Component ComponentLowering.Report ComponentLowering.Settings
open ComponentLowering.Style ComponentLowering.Syntax

/-! ### The last import -/

/-- Whether a position is the one behind the last import of some statements, or the first one if
there is no import. -/
structure IsBehindLastImport (body : List Stmt) (k : Nat) : Prop where
  last : k = 0 ∨ ∃ i s, k = i + 1 ∧ body[i]? = some s ∧ isImport s = true
  others : ∀ s ∈ body.drop k, isImport s = false

theorem isBehindLastImport_afterLastImport (body : List Stmt) :
    IsBehindLastImport body (afterLastImport body) := by
  induction body with
  | nil => exact ⟨.inl rfl, by simp [afterLastImport]⟩
  | cons s rest ih =>
      unfold afterLastImport
      obtain ⟨last, others⟩ := ih
      split
      · rename_i none
        rw [none, List.drop_zero] at others
        cases isImport? : isImport s with
        | true => exact ⟨.inr ⟨0, s, rfl, rfl, isImport?⟩, others⟩
        | false =>
            refine ⟨.inl rfl, ?_⟩
            rw [if_neg Bool.false_ne_true, List.drop_zero, List.forall_mem_cons]
            exact ⟨isImport?, others⟩
      · rename_i n found
        rw [found] at last others
        obtain zero | ⟨i, t, eq, get, isImport?⟩ := last
        · contradiction
        · exact ⟨.inr ⟨i + 1, t, by omega, get, isImport?⟩, others⟩

/-! ### Bodies -/

/-- Where the imports that lowering needs stand among the statements of a module: around its own
imports, or in front of everything. -/
inductive LaidOut (core : Stmt) (styles body : List Stmt) : Convention → List Stmt → Prop
  | esm {k : Nat} (behind : IsBehindLastImport body k) :
      LaidOut core styles body .esm (core :: (body.take k ++ styles ++ body.drop k))
  | cjs : LaidOut core styles body .cjs (styles ++ core :: body)

theorem laidOut_withImports (convention : Convention) (core : Stmt) (styles body : List Stmt) :
    LaidOut core styles body convention (withImports convention [core] styles body) := by
  cases convention with
  | esm =>
      have laid : LaidOut core styles body .esm _ :=
        .esm (isBehindLastImport_afterLastImport body)
      simpa [withImports] using laid
  | cjs => simpa [withImports] using LaidOut.cjs

/-- The core functions that the classes of some components call. -/
def coreFunctions (components : List Component) : List CoreFunction :=
  .registerInstance ::
    if components.any fun c => !c.elementMembers.isEmpty then [.getElement] else []

theorem functions_usedBy {components : List Component} (nonempty : components ≠ []) :
    (usedBy components {}).functions = coreFunctions components := by
  have isEmpty : components.isEmpty = false := by simpa using nonempty
  simp [usedBy, CoreUse.functions, coreFunctions, isEmpty]

/-! ### Modules -/

/-- Nothing is hoisted before the first class is lowered. -/
theorem initialState_eq (body : List Stmt) :
    (initialState body).styles.IsNamed ∧ (initialState body).styles.sheets = [] ∧
      (initialState body).used = {} := by
  have all (names : List String) : ∀ s : ModuleState, s.styles.sheets = [] → s.used = {} →
      (names.foldl ModuleState.reserve s).styles.sheets = [] ∧
        (names.foldl ModuleState.reserve s).used = {} := by
    induction names with
    | nil => exact fun s sheets used => ⟨sheets, used⟩
    | cons n names ih => exact fun s sheets used => ih (s.reserve n) sheets used
  obtain ⟨sheets, used⟩ := all (moduleNames body) {} rfl rfl
  refine ⟨?_, sheets, used⟩
  intro s hs
  rw [initialState, sheets] at hs
  cases hs

/-- The parts of a module whose components were lowered. -/
theorem lowerModule_ok {options : Options} {m out : Module} {report : LoweringReport}
    (h : Gives (lowerModule options m) (report, out)) :
    ∃ lowered, Gives (lowerStatements m.source options m.body (initialState m.body)) lowered ∧
      lowered.report = report ∧ (report.components = [] → out = m) ∧
      (report.components ≠ [] →
        out = { anchoredComments m lowered.state.moves with body := out.body } ∧
          importNeeded options lowered (pruneImports options.corePath lowered.statements).1 =
            .ok out.body) := by
  unfold lowerModule at h
  obtain ⟨lowered, lowers, h⟩ := gives_bind h
  refine ⟨lowered, lowers, ?_⟩
  split at h
  · rename_i none
    obtain ⟨rfl, rfl⟩ := Prod.mk.inj (gives_pure.mp h)
    exact ⟨rfl, fun _ => rfl, fun nonempty => absurd (List.isEmpty_iff.mp none) nonempty⟩
  · rename_i nonempty
    have needed : ∃ body, importNeeded options lowered
        (pruneImports options.corePath lowered.statements).1 = .ok body ∧
        lowered.report = report ∧ out = { anchoredComments m lowered.state.moves with body } := by
      dsimp only at h
      split at h
      · obtain ⟨_, _, h⟩ := gives_bind h
        obtain ⟨body, needs, h⟩ := gives_bind h
        obtain ⟨_, _, h⟩ := gives_bind h
        obtain ⟨rfl, rfl⟩ := Prod.mk.inj (gives_pure.mp h)
        exact ⟨body, gives_lift.mp needs, rfl, rfl⟩
      · obtain ⟨body, needs, h⟩ := gives_bind h
        obtain ⟨_, _, h⟩ := gives_bind h
        obtain ⟨rfl, rfl⟩ := Prod.mk.inj (gives_pure.mp h)
        exact ⟨body, gives_lift.mp needs, rfl, rfl⟩
    obtain ⟨body, needs, rfl, rfl⟩ := needed
    exact ⟨rfl, fun none => absurd (List.isEmpty_iff.mpr none) nonempty, fun _ => ⟨rfl, needs⟩⟩

/-- The components that are reported are those of the module. -/
theorem components_lowerModule {options : Options} {m out : Module} {report : LoweringReport}
    (h : Gives (lowerModule options m) (report, out)) :
    report.components = (m.body.filterMap (component? m.source)).map fun c =>
      { className := c.className, tag := c.tag } := by
  obtain ⟨lowered, lowers, rfl, -⟩ := lowerModule_ok h
  exact (lowers_statements (initialState_eq m.body).1 lowers).components

/-- The imports that lowered statements need: the text of each is always read. -/
theorem importNeeded_eq {options : Options} {lowered : LoweredBody} {components : List Component}
    {sheets : List Sheet} (nonempty : components ≠ [])
    (used : lowered.state.used = usedBy components {}) (named : ∀ s ∈ sheets, IsSheetName s.name)
    (imports : lowered.styleImports = importTexts options.convention sheets) (body : List Stmt) :
    importNeeded options lowered body = .ok (withImports options.convention
      [coreBinding options.convention options.corePath (coreFunctions components)]
      (sheets.map fun s => sheetImport options.convention s.name s.path) body) := by
  have functions := functions_usedBy nonempty
  have text := coreStatement?_eq options.convention options.corePath
    (show (usedBy components {}).functions ≠ [] by simp [functions, coreFunctions])
  unfold importNeeded
  rw [imports, importTexts, statements_sheetImports options.convention named, used, text, functions]
  simp only [statement_coreText]
  rfl

/-- The imports of a module with components can be made, and what they are. -/
theorem importNeeded_lowerStatements {options : Options} {m : Module} {lowered : LoweredBody}
    (h : Gives (lowerStatements m.source options m.body (initialState m.body)) lowered)
    (nonempty : lowered.report.components ≠ []) (body : List Stmt) :
    importNeeded options lowered body = .ok (withImports options.convention
      [coreBinding options.convention options.corePath
        (coreFunctions (m.body.filterMap (component? m.source)))]
      (lowered.state.styles.sheets.map fun s => sheetImport options.convention s.name s.path)
      body) := by
  obtain ⟨named, noSheets, unused⟩ := initialState_eq m.body
  have all := lowers_statements named h
  obtain ⟨sheets, hoisted, imports⟩ := all.styles.added
  rw [noSheets, List.nil_append] at hoisted
  have used := all.used
  rw [unused] at used
  have accepted : m.body.filterMap (component? m.source) ≠ [] := by
    rintro none
    exact nonempty (all.components.trans (by rw [none]; rfl))
  rw [hoisted]
  exact importNeeded_eq accepted used (hoisted ▸ all.styles.named) imports body

/-- The body of a module with components, put together from the pieces of its statements. -/
theorem lowerModule_body {options : Options} {m out : Module} {report : LoweringReport}
    (h : Gives (lowerModule options m) (report, out)) (nonempty : report.components ≠ []) :
    ∃ lowered pieces, Gives (lowerStatements m.source options m.body (initialState m.body)) lowered ∧
      List.Forall₂ (Contributes m.source options) m.body pieces ∧
      lowered.statements = pieces.flatten ∧
      out.body = withImports options.convention
        [coreBinding options.convention options.corePath
          (coreFunctions (m.body.filterMap (component? m.source)))]
        (lowered.state.styles.sheets.map fun s => sheetImport options.convention s.name s.path)
        (pruneImports options.corePath pieces.flatten).1 := by
  obtain ⟨lowered, lowers, rfl, -, needed⟩ := lowerModule_ok h
  obtain ⟨pieces, contribute, statements⟩ := (lowers_statements (initialState_eq m.body).1 lowers).pieces
  have body := (needed nonempty).2
  rw [importNeeded_lowerStatements lowers nonempty, statements] at body
  exact ⟨lowered, pieces, lowers, contribute, statements, (Except.ok.inj body).symm⟩

/-- The layout of a module with components.  The statements of the module contribute their pieces
in order, and the stale imports are dropped from these.  What is left keeps its order; one statement
binds the core functions, those for elements only if a component has one, and one statement binds
each style sheet, in the order in which the sheets were hoisted. -/
theorem lowerModule_laidOut {options : Options} {m out : Module} {report : LoweringReport}
    {log log' : Log} (run : (lowerModule options m).run.run log = (.ok (report, out), log'))
    (nonempty : report.components ≠ []) :
    ∃ lowered pieces, Gives (lowerStatements m.source options m.body (initialState m.body)) lowered ∧
      List.Forall₂ (Contributes m.source options) m.body pieces ∧
      lowered.statements = pieces.flatten ∧
      LaidOut
        (coreBinding options.convention options.corePath
          (coreFunctions (m.body.filterMap (component? m.source))))
        (lowered.state.styles.sheets.map fun s => sheetImport options.convention s.name s.path)
        (pruneImports options.corePath pieces.flatten).1 options.convention out.body := by
  obtain ⟨lowered, pieces, lowers, contribute, statements, body⟩ :=
    lowerModule_body ⟨log, log', run⟩ nonempty
  refine ⟨lowered, pieces, lowers, contribute, statements, ?_⟩
  rw [body]
  exact laidOut_withImports _ _ _ _

/-- The component decorator with a tag and a style sheet. -/
def styledDecorator (tag path : String) : Decorator where
  span := .detached
  expr := .call .detached (.ident .detached "Component") []
    [.object .detached
      [.property .detached (.name .detached "tag") (.string .detached (.ofString tag)) false,
        .property .detached (.name .detached "styleUrl") (.string .detached (.ofString path)) false]]
    false false

/-- A module with one component that has a style sheet. -/
def styledModule : Module where
  source := []
  dialect := .plain
  hashbang := none
  directives := []
  body := [.classDecl { Parser.madeClass (some "A") (by decide) with
    decorators := [styledDecorator "a-a" "a.css"] }]
  comments := []
  stop := 0

/-- The options that are used unless others are given. -/
def defaults : Options := {}

/-- The defaults, with modules of the other convention. -/
def requiring : Options := { convention := .cjs }

/-- Lowering a component with a style sheet succeeds, so its module is laid out. -/
theorem styledModule_laidOut :
    ∃ report out log,
      (lowerModule defaults styledModule).run.run [] = (.ok (report, out), log) ∧
      report.components ≠ [] ∧
      ∃ lowered pieces,
        Gives (lowerStatements styledModule.source defaults styledModule.body
          (initialState styledModule.body)) lowered ∧
        List.Forall₂ (Contributes styledModule.source defaults) styledModule.body pieces ∧
        lowered.statements = pieces.flatten ∧
        LaidOut
          (coreBinding defaults.convention defaults.corePath
            (coreFunctions (styledModule.body.filterMap (component? styledModule.source))))
          (lowered.state.styles.sheets.map fun s => sheetImport defaults.convention s.name s.path)
          (pruneImports defaults.corePath pieces.flatten).1 defaults.convention out.body := by
  have lowers : (((lowerModule defaults styledModule).run.run []).1.toOption.any
      fun r => !r.1.components.isEmpty) = true := by decide +kernel
  rcases run : (lowerModule defaults styledModule).run.run [] with ⟨failure | ⟨report, out⟩, log⟩
  · rw [run] at lowers
    cases lowers
  · rw [run] at lowers
    have nonempty : report.components ≠ [] := by simpa [Except.toOption] using lowers
    exact ⟨report, out, log, rfl, nonempty, lowerModule_laidOut run nonempty⟩

end ComponentLowering.Lowering
