/-
# The messages of a run

A module is lowered while messages about it are sent, and its report is put together at other points of
the same loop.  Both tell the same: the warnings and errors that are sent are the diagnostics of the
report, and the other messages announce its components and count what the report lists.  A logger of a
higher level keeps of these messages those that reach its level, and no others.
-/
import ComponentLowering.Proofs.Lowering.Accounting

namespace ComponentLowering.Lowering

open ComponentLowering.Component ComponentLowering.Report ComponentLowering.Settings
open ComponentLowering.Style ComponentLowering.Syntax

variable {α β : Type} {source : List Char} {options : Options}

/-! ### Loggers -/

/-- What a logger of a level keeps of the messages that it is sent. -/
def kept (level : LogLevel) (sent : Log) : Log :=
  (sent.foldl Logger.send (.capturing level [])).entries

theorem foldl_send (level : LogLevel) (sent before : Log) :
    sent.foldl Logger.send (.capturing level before) =
      .capturing level (before ++ sent.above level) := by
  induction sent generalizing before with
  | nil => simp [Log.above]
  | cons e rest ih =>
      rw [List.foldl_cons]
      cases reaches : e.level.reaches level <;> simp [Logger.send, Log.above, reaches, ih]

theorem kept_eq (level : LogLevel) (sent : Log) : kept level sent = sent.above level := by
  simp [kept, foldl_send, Logger.entries]

/-- At the lowest level, a logger keeps all messages. -/
@[simp]
theorem kept_debug (sent : Log) : kept .debug sent = sent := by
  simp [kept_eq, Log.above, LogLevel.reaches, LogLevel.rank]

/-- A logger keeps what one of the lowest level keeps, as far as it reaches its own level. -/
theorem kept_above (level : LogLevel) (sent : Log) : kept level sent = (kept .debug sent).above level := by
  rw [kept_eq, kept_debug]

/-! ### Messages -/

/-- The message that a diagnostic is sent as. -/
def diagnosticEntry (d : Diagnostic) : LogEntry where
  level := if d.isError then .error else .warn
  message := d.display

/-- The message that a component is about to be lowered. -/
def rewritingEntry (c : Component) : LogEntry where
  level := .debug
  message := "lazy: rewriting <" ++ c.tag ++ "> (" ++ count c.members.length ++ " annotated member(s))"

/-- The message that imports of decorators were dropped. -/
def removedEntry (removed : Nat) : LogEntry where
  level := .debug
  message := "lazy: removed " ++ count removed ++ " decorator import(s)"

/-- The message that counts what was done. -/
def summaryEntry (components sheets diagnostics : Nat) : LogEntry where
  level := .info
  message := "lazy: " ++ count components ++ " component(s), " ++ count sheets ++ " style import(s), "
    ++ count diagnostics ++ " diagnostic(s)"

/-- Whether a message announces a component. -/
def isRewriting (e : LogEntry) : Bool :=
  e.level == .debug && "lazy: rewriting".toList.isPrefixOf e.message.toList

/-- Whether a message counts what was done. -/
def isSummary (e : LogEntry) : Bool := e.level == .info

/-- Whether a message is a warning or an error. -/
def isRemark (e : LogEntry) : Bool := e.level.reaches .warn

@[simp]
theorem kinds_rewritingEntry (c : Component) :
    isRemark (rewritingEntry c) = false ∧ isRewriting (rewritingEntry c) = true ∧
      isSummary (rewritingEntry c) = false := by
  refine ⟨rfl, ?_, rfl⟩
  simp [isRewriting, rewritingEntry]

@[simp]
theorem kinds_removedEntry (removed : Nat) :
    isRemark (removedEntry removed) = false ∧ isRewriting (removedEntry removed) = false ∧
      isSummary (removedEntry removed) = false := by
  refine ⟨rfl, ?_, rfl⟩
  simp [isRewriting, removedEntry, List.isPrefixOf]

@[simp]
theorem kinds_summaryEntry (components sheets diagnostics : Nat) :
    isRemark (summaryEntry components sheets diagnostics) = false ∧
      isRewriting (summaryEntry components sheets diagnostics) = false ∧
      isSummary (summaryEntry components sheets diagnostics) = true := ⟨rfl, rfl, rfl⟩

/-- A diagnostic is a warning or an error, and nothing else. -/
@[simp]
theorem kinds_diagnosticEntry (d : Diagnostic) :
    isRemark (diagnosticEntry d) = true ∧ isRewriting (diagnosticEntry d) = false ∧
      isSummary (diagnosticEntry d) = false := by
  unfold diagnosticEntry isRemark isRewriting isSummary
  cases d.isError <;> exact ⟨rfl, rfl, rfl⟩

/-! ### Computations that send messages -/

theorem run_bind_ok {x : Logging α} {f : α → Logging β} {b : β} {log log' : Log}
    (h : (x >>= f).run.run log = (.ok b, log')) :
    ∃ a between, x.run.run log = (.ok a, between) ∧ (f a).run.run between = (.ok b, log') := by
  simp only [ExceptT.run_bind, StateT.run_bind] at h
  rcases run : x.run.run log with ⟨failure | a, between⟩
  · rw [run] at h
    cases h
  · rw [run] at h
    exact ⟨a, between, rfl, h⟩

theorem run_pure_ok {a b : α} {log log' : Log}
    (h : (pure a : Logging α).run.run log = (.ok b, log')) : b = a ∧ log' = log := by
  obtain ⟨ok, same⟩ := Prod.mk.inj h
  exact ⟨(Except.ok.inj ok).symm, same.symm⟩

/-- What may fail sends nothing. -/
theorem run_lift_ok {result : Except Failure α} {a : α} {log log' : Log}
    (h : (lift result).run.run log = (.ok a, log')) : result = .ok a ∧ log' = log := by
  cases result with
  | error failure => cases (Prod.mk.inj h).1
  | ok b =>
      obtain ⟨rfl, same⟩ := run_pure_ok h
      exact ⟨rfl, same⟩

theorem run_note (level : LogLevel) (message : String) (log : Log) :
    (note level message).run.run log = (.ok ⟨⟩, log ++ [⟨level, message⟩]) := rfl

/-- Diagnostics are sent one after the other. -/
theorem run_noteDiagnostics (ds : List Diagnostic) (log : Log) :
    (ds.forM noteDiagnostic).run.run log = (.ok ⟨⟩, log ++ ds.map diagnosticEntry) := by
  induction ds generalizing log with
  | nil => simp; rfl
  | cons d ds ih =>
      have first : (noteDiagnostic d).run.run log = (.ok ⟨⟩, log ++ [diagnosticEntry d]) := rfl
      have rest := ih (log ++ [diagnosticEntry d])
      rw [List.append_assoc] at rest
      exact (run_bind first).trans rest

theorem run_noteDiagnostics_ok {ds : List Diagnostic} {sent : PUnit} {log log' : Log}
    (h : (ds.forM noteDiagnostic).run.run log = (.ok sent, log')) :
    log' = log ++ ds.map diagnosticEntry := by
  rw [run_noteDiagnostics] at h
  exact (Prod.mk.inj h).2.symm

/-! ### Classes -/

/-- The messages about a class: the announcement of the component that it is, and the remarks. -/
def classLog (source : List Char) (decl : ClassDef) : Log :=
  ((accepted? source decl).map rewritingEntry).toList ++ (remarks source decl).map diagnosticEntry

/-- A component is announced, and then its remarks are sent. -/
theorem run_lowerComponent {statement : Stmt} {decl : ClassDef} {c : Component} {s : ModuleState}
    {result : LoweredBody} {log log' : Log}
    (h : (lowerComponent options statement decl c s).run.run log = (.ok result, log')) :
    log' = log ++ rewritingEntry c ::
      (c.warnings ++ droppedWarning c.className (firstParameters decl)).map diagnosticEntry := by
  unfold lowerComponent at h
  obtain ⟨_, announced, announces, h⟩ := run_bind_ok h
  obtain ⟨_, warned, warns, h⟩ := run_bind_ok h
  obtain ⟨lowered, between, lowers, h⟩ := run_bind_ok h
  obtain ⟨_, replaced, replaces, h⟩ := run_bind_ok h
  obtain ⟨new, between', shapes, h⟩ := run_bind_ok h
  obtain ⟨lowers, same⟩ := run_lift_ok lowers
  have sent : log' = replaced := by
    rcases plans : planStyles options c lowered.state.styles with ⟨_ | p, ledger⟩
    · rw [plans] at h
      obtain ⟨assignment, _, eq, h⟩ := run_bind_ok h
      rw [(run_pure_ok h).2, (run_pure_ok eq).2, (run_lift_ok shapes).2]
    · rw [plans] at h
      obtain ⟨t, _, read, h⟩ := run_bind_ok h
      obtain ⟨assignment, _, eq, h⟩ := run_bind_ok h
      rw [(run_pure_ok h).2, (run_pure_ok eq).2, (run_lift_ok read).2, (run_lift_ok shapes).2]
  rw [run_note] at announces
  rw [sent, run_noteDiagnostics_ok replaces, lowerClass_warnings lowers, same,
    run_noteDiagnostics_ok warns, ← (Prod.mk.inj announces).2]
  simp [rewritingEntry]

/-- What is sent while one statement is lowered: the messages about the class that it declares. -/
theorem run_lowerStatement {statement : Stmt} {s : ModuleState} {result : LoweredBody} {log log' : Log}
    (h : (lowerStatement source options statement s).run.run log = (.ok result, log')) :
    log' = log ++ ((class? statement).map (classLog source)).getD [] := by
  unfold lowerStatement at h
  cases cls : class? statement with
  | none =>
      rw [cls] at h
      simpa using (run_pure_ok h).2
  | some decl =>
      simp only [cls] at h
      simp only [Option.map_some, Option.getD_some, classLog, accepted?, remarks]
      cases reads : readClass source decl with
      | plain =>
          rw [reads] at h
          simpa using (run_pure_ok h).2
      | skipped reason =>
          rw [reads] at h
          obtain ⟨_, between, sends, h⟩ := run_bind_ok h
          rw [noteDiagnostic, run_note] at sends
          rw [(run_pure_ok h).2, ← (Prod.mk.inj sends).2]
          rfl
      | component c =>
          rw [reads] at h
          simpa using run_lowerComponent h

/-- What is sent while statements are lowered: the messages about their classes, in the order of the
text. -/
theorem run_lowerStatements {body : List Stmt} {s : ModuleState} {result : LoweredBody} {log log' : Log}
    (h : (lowerStatements source options body s).run.run log = (.ok result, log')) :
    log' = log ++ (classes body).flatMap (classLog source) := by
  induction body generalizing s result log with
  | nil => simpa [classes] using (run_pure_ok h).2
  | cons statement rest ih =>
      obtain ⟨here, between, first, h⟩ := run_bind_ok h
      obtain ⟨more, between', later, h⟩ := run_bind_ok h
      obtain ⟨-, rfl⟩ := run_pure_ok h
      rw [ih later, run_lowerStatement first]
      unfold classes
      cases cls : class? statement with
      | none => simp [cls]
      | some decl => simp [cls]

/-- How the messages about a class go with how it is read. -/
inductive IsLoggedOn (source : List Char) (decl : ClassDef) : Log → Prop
  /-- Nothing is sent about a class that does not claim to be a component. -/
  | plain (reads : readClass source decl = .plain) : IsLoggedOn source decl []
  /-- The error for which a class is refused is sent. -/
  | refused {reason : Diagnostic} (reads : readClass source decl = .skipped reason)
      (error : reason.isError = true) : IsLoggedOn source decl [diagnosticEntry reason]
  /-- A component is announced, and then all warnings about it are sent. -/
  | accepted {c : Component} {warnings : List Diagnostic}
      (reads : readClass source decl = .component c) (warns : OnlyWarns c.className warnings) :
      IsLoggedOn source decl (rewritingEntry c :: warnings.map diagnosticEntry)

theorem isLoggedOn_classLog (source : List Char) (decl : ClassDef) :
    IsLoggedOn source decl (classLog source decl) := by
  unfold classLog accepted? remarks
  cases reads : readClass source decl with
  | plain => exact .plain reads
  | skipped reason => exact .refused reads (refuses_of_skipped reads).isError
  | component c =>
      exact .accepted reads
        (onlyWarns_append.mpr ⟨onlyWarns_of_component reads, onlyWarns_droppedWarning _ _⟩)

/-- Of the messages about a class, the warnings and errors are its remarks, the announcement is that of
the component that it is, and none counts what was done. -/
theorem kinds_classLog (source : List Char) (decl : ClassDef) :
    (classLog source decl).filter isRemark = (remarks source decl).map diagnosticEntry ∧
      (classLog source decl).filter isRewriting =
        ((accepted? source decl).map rewritingEntry).toList ∧
      (classLog source decl).filter isSummary = [] := by
  have sent (p : LogEntry → Bool) (value : Bool) (all : ∀ d, p (diagnosticEntry d) = value) :
      ((remarks source decl).map diagnosticEntry).filter p =
        if value then (remarks source decl).map diagnosticEntry else [] := by
    cases value <;> simp [List.filter_eq_self, List.filter_eq_nil_iff, all]
  unfold classLog
  simp only [List.filter_append, sent _ true fun d => (kinds_diagnosticEntry d).1,
    sent _ false fun d => (kinds_diagnosticEntry d).2.1,
    sent _ false fun d => (kinds_diagnosticEntry d).2.2]
  cases accepted? source decl with
  | none => exact ⟨rfl, rfl, rfl⟩
  | some c => simp

/-- What is sent about some classes, told apart in the same way. -/
theorem kinds_classLogs (source : List Char) (decls : List ClassDef) :
    (decls.flatMap (classLog source)).filter isRemark =
        (decls.flatMap (remarks source)).map diagnosticEntry ∧
      (decls.flatMap (classLog source)).filter isRewriting =
        (decls.filterMap (accepted? source)).map rewritingEntry ∧
      (decls.flatMap (classLog source)).filter isSummary = [] := by
  simp only [List.filter_flatMap, List.map_flatMap, List.map_filterMap, kinds_classLog]
  refine ⟨trivial, (List.filterMap_eq_flatMap_toList _ _).symm, by simp⟩

/-! ### Modules -/

/-- The message about dropped imports, if any were dropped. -/
def droppedLog (removed : Nat) : Log := if removed = 0 then [] else [removedEntry removed]

theorem kinds_droppedLog (removed : Nat) :
    ∀ e ∈ droppedLog removed, isRemark e = false ∧ isRewriting e = false ∧ isSummary e = false := by
  unfold droppedLog
  split <;> simp

/-- The last messages about a module with components: what was dropped, and what was done. -/
def endingLog (options : Options) (lowered : LoweredBody) : Log :=
  droppedLog (pruneImports options.corePath lowered.statements).2 ++
    [summaryEntry lowered.report.components.length lowered.state.styles.sheets.length
      lowered.report.diagnostics.length]

variable {m out : Module} {report : LoweringReport} {log sent : Log}

/-- What is sent while a module is lowered: the messages about its classes, and if one is a component,
those about the whole. -/
theorem run_lowerModule (h : (lowerModule options m).run.run log = (.ok (report, out), sent)) :
    ∃ lowered, Gives (lowerStatements m.source options m.body (initialState m.body)) lowered ∧
      lowered.report = report ∧
      (report.components = [] → sent = log ++ (classes m.body).flatMap (classLog m.source)) ∧
      (report.components ≠ [] →
        importNeeded options lowered (pruneImports options.corePath lowered.statements).1 =
          .ok out.body ∧
        sent = log ++ ((classes m.body).flatMap (classLog m.source) ++ endingLog options lowered)) := by
  unfold lowerModule at h
  obtain ⟨lowered, between, lowers, h⟩ := run_bind_ok h
  refine ⟨lowered, ⟨log, between, lowers⟩, ?_⟩
  obtain rfl := run_lowerStatements lowers
  split at h
  · rename_i none
    obtain ⟨pair, rfl⟩ := run_pure_ok h
    obtain ⟨rfl, rfl⟩ := Prod.mk.inj pair
    exact ⟨rfl, fun _ => rfl, fun nonempty => absurd (List.isEmpty_iff.mp none) nonempty⟩
  · rename_i nonempty
    have ends : lowered.report = report ∧
        importNeeded options lowered (pruneImports options.corePath lowered.statements).1 =
          .ok out.body ∧
        sent = log ++ ((classes m.body).flatMap (classLog m.source) ++ endingLog options lowered) := by
      dsimp only at h
      split at h
      · rename_i dropped
        obtain ⟨_, noted, notes, h⟩ := run_bind_ok h
        obtain ⟨body, _, needs, h⟩ := run_bind_ok h
        obtain ⟨_, _, counts, h⟩ := run_bind_ok h
        obtain ⟨pair, rfl⟩ := run_pure_ok h
        obtain ⟨rfl, rfl⟩ := Prod.mk.inj pair
        obtain ⟨made, rfl⟩ := run_lift_ok needs
        rw [run_note] at notes counts
        refine ⟨rfl, made, ?_⟩
        rw [← (Prod.mk.inj counts).2, ← (Prod.mk.inj notes).2, endingLog, droppedLog, if_neg dropped]
        simp [removedEntry, summaryEntry]
      · rename_i same
        obtain ⟨body, _, needs, h⟩ := run_bind_ok h
        obtain ⟨_, _, counts, h⟩ := run_bind_ok h
        obtain ⟨pair, rfl⟩ := run_pure_ok h
        obtain ⟨rfl, rfl⟩ := Prod.mk.inj pair
        obtain ⟨made, rfl⟩ := run_lift_ok needs
        rw [run_note] at counts
        refine ⟨rfl, made, ?_⟩
        rw [← (Prod.mk.inj counts).2, endingLog, droppedLog, if_pos (Decidable.not_not.mp same)]
        simp [summaryEntry]
    obtain ⟨rfl, needs, eq⟩ := ends
    exact ⟨rfl, fun none => absurd (List.isEmpty_iff.mpr none) nonempty, fun _ => ⟨needs, eq⟩⟩

/-- The statements of a lowered module that bind the style sheets which lowering needs. -/
def BindsSheets (options : Options) (m out : Module) (bound : List Stmt) : Prop :=
  ∃ (sheets : List Sheet) (pieces : List (List Stmt)),
    bound = sheets.map (fun s => sheetImport options.convention s.name s.path) ∧
    List.Forall₂ (Contributes m.source options) m.body pieces ∧
    LaidOut
      (coreBinding options.convention options.corePath
        (coreFunctions (m.body.filterMap (component? m.source))))
      bound (pruneImports options.corePath pieces.flatten).1 options.convention out.body

/-- How the messages that are sent while a module is lowered go with its report. -/
structure Mirrors (options : Options) (m out : Module) (report : LoweringReport) (sent : Log) :
    Prop where
  /-- The warnings and errors are the diagnostics of the report, in its order; the errors are sent as
  errors. -/
  diagnostics : (kept .debug sent).filter isRemark = report.diagnostics.map diagnosticEntry
  /-- The components of the report are announced once each, in its order. -/
  components : ∃ accepted : List Component,
    report.components = accepted.map (fun c => { className := c.className, tag := c.tag }) ∧
    (kept .debug sent).filter isRewriting = accepted.map rewritingEntry
  /-- The messages about one class stand together, a component being announced before it is warned
  about, and those about the module behind them. -/
  parts : ∃ parts closing, List.Forall₂ (IsLoggedOn m.source) (classes m.body) parts ∧
    kept .debug sent = parts.flatten ++ closing ∧
    ∀ e ∈ closing, isRemark e = false ∧ isRewriting e = false
  /-- Without components, nothing is said about what was done. -/
  silent : report.components = [] → (kept .debug sent).filter isSummary = []
  /-- With components, the last message, and no other, tells the numbers of the components, of the
  statements that bind style sheets and of the diagnostics. -/
  summary : report.components ≠ [] → ∃ before bound, BindsSheets options m out bound ∧
    kept .debug sent =
      before ++ [summaryEntry report.components.length bound.length report.diagnostics.length] ∧
    before.filter isSummary = []
  /-- A logger of another level keeps the messages that reach it. -/
  levels : ∀ level, kept level sent = (kept .debug sent).above level

/-- The messages that are sent while a module is lowered mirror its report. -/
theorem lowerModule_mirrors
    (run : (lowerModule options m).run.run [] = (.ok (report, out), sent)) :
    Mirrors options m out report sent := by
  obtain ⟨lowered, lowers, same, ofNone, ofSome⟩ := run_lowerModule run
  have whole := (lowerModule_report ⟨[], sent, run⟩).trans (bodyReport_eq m.source m.body)
  obtain ⟨reported, announced, uncounted⟩ := kinds_classLogs m.source (classes m.body)
  have diagnostics : report.diagnostics = (classes m.body).flatMap (remarks m.source) := by rw [whole]
  have closing : ∃ closing, sent = (classes m.body).flatMap (classLog m.source) ++ closing ∧
      ∀ e ∈ closing, isRemark e = false ∧ isRewriting e = false := by
    by_cases none : report.components = []
    · exact ⟨[], by rw [ofNone none, List.nil_append, List.append_nil], by simp⟩
    · obtain ⟨-, eq⟩ := ofSome none
      refine ⟨_, eq, List.forall_mem_append.mpr ⟨fun e mem => ?_, by simp⟩⟩
      obtain ⟨remark, rewriting, -⟩ := kinds_droppedLog _ e mem
      exact ⟨remark, rewriting⟩
  obtain ⟨closing, eq, others⟩ := closing
  refine ⟨?diagnostics, ?components, ?parts, ?silent, ?summary, fun level => kept_above level sent⟩
  all_goals rw [kept_debug]
  case diagnostics =>
    rw [eq, List.filter_append, reported, diagnostics,
      List.filter_eq_nil_iff.mpr fun e mem => by simp [(others e mem).1], List.append_nil]
  case components =>
    refine ⟨_, by rw [whole], ?_⟩
    rw [eq, List.filter_append, announced,
      List.filter_eq_nil_iff.mpr fun e mem => by simp [(others e mem).2], List.append_nil]
  case parts =>
    refine ⟨(classes m.body).map (classLog m.source), closing, ?_, by rw [eq, List.flatMap_def], others⟩
    rw [List.forall₂_map_right_iff, List.forall₂_same]
    exact fun decl _ => isLoggedOn_classLog m.source decl
  case silent =>
    intro none
    rw [ofNone none, List.nil_append, uncounted]
  case summary =>
    intro nonempty
    obtain ⟨needs, eq⟩ := ofSome nonempty
    obtain ⟨pieces, contribute, statements⟩ :=
      (lowers_statements (initialState_eq m.body).1 lowers).pieces
    rw [importNeeded_lowerStatements lowers (same ▸ nonempty), statements] at needs
    refine ⟨(classes m.body).flatMap (classLog m.source) ++
      droppedLog (pruneImports options.corePath lowered.statements).2, _,
      ⟨lowered.state.styles.sheets, pieces, rfl, contribute, ?laid⟩, ?eq, ?uncounted⟩
    case laid =>
      rw [← Except.ok.inj needs]
      exact laidOut_withImports _ _ _ _
    case eq => rw [eq, endingLog, same, List.length_map, List.nil_append, List.append_assoc]
    case uncounted =>
      rw [List.filter_append, uncounted,
        List.filter_eq_nil_iff.mpr fun e mem => by simp [(kinds_droppedLog _ e mem).2.2]]
      rfl

/-! ### A module that is warned about -/

/-- A module with a class that is refused, a component with a style sheet that is warned about, and one
that nothing is said of; the import of a decorator that is not used is dropped. -/
def warned : String :=
  "import \x7b Component, Element \x7d from '@stencil/core';\n@Component() class A \x7b\x7d\n" ++
    "@Component(\x7b tag: 'b-b', styleUrl: 'b.css' \x7d) class B \x7b constructor(a) \x7b\x7d \x7d\n" ++
    "@Component(\x7b tag: 'c-c' \x7d) export class C \x7b\x7d\n"

/-- Whether a module is lowered while messages of the given levels are sent. -/
def sendsLevels (options : Options) (levels : List LogLevel) (m : Module) : Bool :=
  match (lowerModule options m).run.run [] with
  | (.ok _, sent) => sent.map (·.level) == levels
  | _ => false

theorem of_sendsLevels {levels : List LogLevel} (h : sendsLevels options levels m = true) :
    ∃ report out sent, (lowerModule options m).run.run [] = (.ok (report, out), sent) ∧
      sent.map (·.level) = levels := by
  unfold sendsLevels at h
  split at h
  · rename_i result sent run
    exact ⟨result.1, result.2, sent, run, beq_iff_eq.mp h⟩
  · cases h

theorem warned_read :
    ∃ m, Module.read (.ofPath "a.ts") warned.toList = .ok m ∧
      sendsLevels defaults [.error, .debug, .warn, .debug, .debug, .info] m = true :=
  exists_of_read (by decide +kernel)

/-- Messages of all levels are sent while the module is lowered, and they mirror its report. -/
theorem warned_mirrors :
    ∃ m report out sent, Module.read (.ofPath "a.ts") warned.toList = .ok m ∧
      (lowerModule defaults m).run.run [] = (.ok (report, out), sent) ∧
      sent.map (·.level) = [.error, .debug, .warn, .debug, .debug, .info] ∧
      Mirrors defaults m out report sent := by
  obtain ⟨m, read, levels⟩ := warned_read
  obtain ⟨report, out, sent, run, levels⟩ := of_sendsLevels levels
  exact ⟨m, report, out, sent, read, run, levels, lowerModule_mirrors run⟩

end ComponentLowering.Lowering
