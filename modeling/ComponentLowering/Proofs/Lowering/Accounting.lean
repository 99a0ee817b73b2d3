/-
# What is reported of the classes of a module

Remarks about classes are raised at three points: when a class is refused, while the annotations of a
component are read, and when its constructor is replaced.  They end in one list, in which those about one
class stand together and the classes stand in the order of the text.  So the list tells for each class of
the module what became of it.  Remarks about different classes of the same name are not kept apart.
-/
import ComponentLowering.Proofs.Component.Remarks
import ComponentLowering.Proofs.Lowering.DeclaredNames
import ComponentLowering.Proofs.Lowering.ReportAndMoves

namespace ComponentLowering.Lowering

open ComponentLowering.Component ComponentLowering.Report ComponentLowering.Settings
open ComponentLowering.Syntax

variable {source : List Char} {options : Options} {decl : ClassDef}

/-! ### One class -/

/-- The component that a class is read as. -/
def accepted? (source : List Char) (decl : ClassDef) : Option Component :=
  match readClass source decl with
  | .component c => some c
  | _ => none

/-- Why a class that claims to be a component is refused. -/
def refusal? (source : List Char) (decl : ClassDef) : Option Diagnostic :=
  match readClass source decl with
  | .skipped reason => some reason
  | _ => none

/-- The remarks about a class: why it is refused, or what is warned about. -/
def remarks (source : List Char) (decl : ClassDef) : List Diagnostic :=
  match readClass source decl with
  | .plain => []
  | .skipped reason => [reason]
  | .component c => c.warnings ++ droppedWarning c.className (firstParameters decl)

theorem accepted?_eq_some {c : Component} :
    accepted? source decl = some c ↔ readClass source decl = .component c := by
  unfold accepted?
  cases readClass source decl <;> simp

theorem refusal?_eq_some {reason : Diagnostic} :
    refusal? source decl = some reason ↔ readClass source decl = .skipped reason := by
  unfold refusal?
  cases readClass source decl <;> simp

theorem onlyWarns_droppedWarning (className : String) (dropped : Nat) :
    OnlyWarns className (droppedWarning className dropped) := by
  unfold droppedWarning
  split
  · exact onlyWarns_nil
  · exact onlyWarns_cons.mpr ⟨⟨rfl, rfl⟩, onlyWarns_nil⟩

/-- How the remarks about a class go with how it is read. -/
inductive IsRemarkedOn (source : List Char) (decl : ClassDef) : List Diagnostic → Prop
  /-- There is nothing to say about a class that does not claim to be a component. -/
  | plain (reads : readClass source decl = .plain) : IsRemarkedOn source decl []
  /-- A class that is refused gets one error. -/
  | refused {reason : Diagnostic} (reads : readClass source decl = .skipped reason)
      (refuses : Refuses (decl.name.map (·.name)) reason) : IsRemarkedOn source decl [reason]
  /-- A component gets the warnings about its annotations, and the one about its constructor. -/
  | accepted {c : Component} (reads : readClass source decl = .component c)
      (warns : OnlyWarns c.className
        (c.warnings ++ droppedWarning c.className (firstParameters decl))) :
      IsRemarkedOn source decl (c.warnings ++ droppedWarning c.className (firstParameters decl))

theorem isRemarkedOn_remarks (source : List Char) (decl : ClassDef) :
    IsRemarkedOn source decl (remarks source decl) := by
  unfold remarks
  split
  · rename_i reads
    exact .plain reads
  · rename_i reason reads
    exact .refused reads (refuses_of_skipped reads)
  · rename_i c reads
    exact .accepted reads
      (onlyWarns_append.mpr ⟨onlyWarns_of_component reads, onlyWarns_droppedWarning _ _⟩)

/-- Among the remarks about a class, the errors are what it is refused for. -/
theorem IsRemarkedOn.errors {ds : List Diagnostic} (h : IsRemarkedOn source decl ds) :
    ds.filter Diagnostic.isError = (refusal? source decl).toList := by
  unfold refusal?
  cases h with
  | plain reads => rw [reads]; rfl
  | refused reads refuses => simp [reads, refuses.isError]
  | accepted reads warns =>
      rw [reads, List.filter_eq_nil_iff.mpr fun d mem => by simp [(warns d mem).isError]]
      rfl

/-- Among the remarks about a class, what is no error is a warning about the component that it is. -/
theorem IsRemarkedOn.warnsOf {ds : List Diagnostic} {d : Diagnostic} (h : IsRemarkedOn source decl ds)
    (mem : d ∈ ds) (other : d.isError = false) :
    ∃ c, readClass source decl = .component c ∧ WarnsOf c.className d := by
  cases h with
  | plain reads => cases mem
  | refused reads refuses =>
      rw [List.mem_singleton.mp mem, refuses.isError] at other
      cases other
  | accepted reads warns => exact ⟨_, reads, warns d mem⟩

/-! ### Some statements -/

/-- A statement is reported on through the class that it declares. -/
theorem statementReport_eq (source : List Char) (statement : Stmt) :
    statementReport source statement =
      { components := ((class? statement).bind (accepted? source)).toList.map fun c =>
          { className := c.className, tag := c.tag }
        diagnostics := ((class? statement).map (remarks source)).getD [] } := by
  unfold statementReport accepted? remarks
  cases class? statement with
  | none => rfl
  | some decl =>
      simp only [Option.map_some, Option.bind_some, Option.getD_some]
      cases readClass source decl <;> rfl

/-- Statements are reported on class by class, in the order of the text. -/
theorem bodyReport_eq (source : List Char) (body : List Stmt) :
    bodyReport source body =
      { components := ((classes body).filterMap (accepted? source)).map fun c =>
          { className := c.className, tag := c.tag }
        diagnostics := (classes body).flatMap (remarks source) } := by
  induction body with
  | nil => rfl
  | cons statement rest ih =>
      have here := statementReport_eq source statement
      change (statementReport source statement).append (bodyReport source rest) = _
      rw [ih, here, LoweringReport.append]
      unfold classes
      cases cls : class? statement with
      | none =>
          rw [List.filterMap_cons_none cls]
          rfl
      | some decl =>
          rw [List.filterMap_cons_some cls]
          cases accepted : accepted? source decl <;> simp [accepted]

/-! ### Modules -/

/-- The class statements of a module that declare no component. -/
def otherClasses (m : Module) : List Stmt :=
  m.body.filter fun s => (class? s).isSome && (component? m.source s).isNone

/-- How a report accounts for the classes of a module, and what becomes of those that are not lowered. -/
structure Accounts (m out : Module) (report : LoweringReport) : Prop where
  /-- The components are those that the classes are read as, in the order of the text. -/
  components : report.components =
    ((classes m.body).filterMap (accepted? m.source)).map fun c =>
      { className := c.className, tag := c.tag }
  /-- A component has the name of its class. -/
  names : ∀ decl ∈ classes m.body, ∀ c, accepted? m.source decl = some c →
    decl.name.map (·.name) = some c.className
  /-- The remarks about a class stand together, and the classes in the order of the text. -/
  remarks : ∃ parts, List.Forall₂ (IsRemarkedOn m.source) (classes m.body) parts ∧
    report.diagnostics = parts.flatten
  /-- The errors are those that the refused classes are refused for, in the order of the text. -/
  errors : report.diagnostics.filter Diagnostic.isError =
    (classes m.body).filterMap (refusal? m.source)
  /-- Everything else is a warning that carries the name of a component. -/
  warnings : ∀ d ∈ report.diagnostics, d.isError = false →
    ∃ c ∈ (classes m.body).filterMap (accepted? m.source), WarnsOf c.className d
  /-- There are errors exactly if a class is refused. -/
  hasErrors : report.hasErrors = true ↔ ∃ decl ∈ classes m.body, ∃ reason,
    readClass m.source decl = .skipped reason
  /-- The statements of the other classes are left as they are, in their order. -/
  others : (otherClasses m).Sublist out.body

/-- Statements that are neither lowered nor imports are left among the pieces. -/
theorem sublist_pieces {body : List Stmt} {pieces : List (List Stmt)} {p : Stmt → Bool}
    (contribute : List.Forall₂ (Contributes source options) body pieces)
    (others : ∀ s, p s = true → component? source s = none) :
    (body.filter p).Sublist pieces.flatten := by
  induction contribute with
  | nil => exact List.Sublist.refl _
  | @cons statement piece rest pieces contributes later ih =>
      rw [List.flatten_cons]
      cases holds : p statement with
      | false =>
          rw [List.filter_cons_of_neg (by simp [holds])]
          exact ih.trans (List.sublist_append_right _ _)
      | true =>
          rw [List.filter_cons_of_pos holds]
          obtain ⟨-, rfl⟩ | ⟨c, _, _, _, _, _, accepted, -⟩ := contributes_cases contributes
          · exact ih.cons_cons statement
          · rw [others statement holds] at accepted
            cases accepted

variable {m out : Module} {report : LoweringReport} {log log' : Log}

/-- The statements of classes that are not lowered are left as they are. -/
theorem otherClasses_sublist (h : Gives (lowerModule options m) (report, out)) :
    (otherClasses m).Sublist out.body := by
  by_cases none : report.components = []
  · obtain ⟨-, -, -, same, -⟩ := lowerModule_ok h
    rw [same none]
    exact List.filter_sublist
  · obtain ⟨lowered, pieces, -, contribute, -, body⟩ := lowerModule_body h none
    have left : (otherClasses m).Sublist pieces.flatten :=
      sublist_pieces contribute fun s holds => by
        simpa using (Bool.and_eq_true_iff.mp holds).2
    have again := left.filter fun s => (class? s).isSome && (component? m.source s).isNone
    rw [otherClasses, List.filter_filter] at again
    simp only [Bool.and_self] at again
    rw [← filter_pruneImports options.corePath pieces.flatten fun _ => rfl] at again
    rw [body]
    exact (again.trans List.filter_sublist).trans (sublist_withImports _ _ _ _)

/-- The report of a lowered module accounts for each of its classes.  It lists the components with their
names and tags, gives one error for each class that is refused, and warns of nothing but components, all
in the order of the text; and the classes that are not lowered are left. -/
theorem lowerModule_accounts
    (run : (lowerModule options m).run.run log = (.ok (report, out), log')) :
    Accounts m out report := by
  have whole := (lowerModule_report ⟨log, log', run⟩).trans (bodyReport_eq m.source m.body)
  have diagnostics : report.diagnostics = (classes m.body).flatMap (remarks m.source) := by rw [whole]
  have errors : report.diagnostics.filter Diagnostic.isError =
      (classes m.body).filterMap (refusal? m.source) := by
    rw [diagnostics, List.filter_flatMap, List.filterMap_eq_flatMap_toList]
    exact congrArg (List.flatMap · _) (funext fun decl => (isRemarkedOn_remarks m.source decl).errors)
  refine ⟨by rw [whole], ?names, ?remarks, errors, ?warnings, ?hasErrors,
    otherClasses_sublist ⟨log, log', run⟩⟩
  case names =>
    intro decl _ c accepted
    exact (isReadAs_of_component (accepted?_eq_some.mp accepted)).name
  case remarks =>
    refine ⟨(classes m.body).map (remarks m.source), ?_, by rw [diagnostics, List.flatMap_def]⟩
    rw [List.forall₂_map_right_iff, List.forall₂_same]
    exact fun decl _ => isRemarkedOn_remarks m.source decl
  case warnings =>
    intro d mem other
    rw [diagnostics] at mem
    obtain ⟨decl, inBody, mem⟩ := List.mem_flatMap.mp mem
    obtain ⟨c, reads, warns⟩ := (isRemarkedOn_remarks m.source decl).warnsOf mem other
    exact ⟨c, List.mem_filterMap.mpr ⟨decl, inBody, accepted?_eq_some.mpr reads⟩, warns⟩
  case hasErrors =>
    have hasErrors : report.hasErrors = true ↔ ∃ d, d ∈ report.diagnostics.filter Diagnostic.isError := by
      simp [LoweringReport.hasErrors]
    rw [hasErrors, errors]
    simp only [List.mem_filterMap, refusal?_eq_some]
    constructor
    · rintro ⟨reason, decl, mem, reads⟩
      exact ⟨decl, mem, reason, reads⟩
    · rintro ⟨decl, mem, reason, reads⟩
      exact ⟨reason, decl, mem, reads⟩

/-! ### A module with classes of all kinds -/

/-- A module with a class that is refused, one that claims nothing, and between them a component that is
warned about twice. -/
def mixed : String :=
  "@Component() class A \x7b\x7d\n@Component(\x7b tag: 'b-b', styleUrl: 1 \x7d)\nexport class B \x7b\n" ++
    "  constructor(a) \x7b\x7d\n\x7d\nexport default class C \x7b\x7d\n"

/-- Whether a module is lowered with errors, two warnings and a component. -/
def isMixed (options : Options) (m : Module) : Bool :=
  match (lowerModule options m).run.run [] with
  | (.ok (report, _), _) =>
    report.hasErrors && report.diagnostics.length == 3 && report.components.length == 1
  | _ => false

theorem of_isMixed (h : isMixed options m = true) :
    ∃ report out log, (lowerModule options m).run.run [] = (.ok (report, out), log) ∧
      report.hasErrors = true ∧ report.diagnostics.length = 3 ∧ report.components.length = 1 := by
  unfold isMixed at h
  split at h
  · rename_i report out log run
    simp only [Bool.and_eq_true, beq_iff_eq] at h
    exact ⟨report, out, log, run, h.1.1, h.1.2, h.2⟩
  · cases h

theorem mixed_read :
    ∃ m, Module.read (.ofPath "a.ts") mixed.toList = .ok m ∧ isMixed defaults m = true :=
  exists_of_read (by decide +kernel)

/-- The module is lowered, so its report accounts for its classes. -/
theorem mixed_accounts :
    ∃ m report out log, Module.read (.ofPath "a.ts") mixed.toList = .ok m ∧
      (lowerModule defaults m).run.run [] = (.ok (report, out), log) ∧
      report.hasErrors = true ∧ report.diagnostics.length = 3 ∧ report.components.length = 1 ∧
      Accounts m out report := by
  obtain ⟨m, read, kinds⟩ := mixed_read
  obtain ⟨report, out, log, run, errors, three, one⟩ := of_isMixed kinds
  exact ⟨m, report, out, log, read, run, errors, three, one, lowerModule_accounts run⟩

end ComponentLowering.Lowering
