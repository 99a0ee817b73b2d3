/-
# Lowered modules

The classes of a module are lowered in the order of the text.  What the lowered classes need is
imported at the top, and a report says which components were found and what was wrong.
-/
import ComponentLowering.Lowering.ClassBody
import ComponentLowering.Lowering.CommentAnchor
import ComponentLowering.Lowering.CoreImport
import ComponentLowering.Lowering.DecoratorImport
import ComponentLowering.Lowering.ModuleNames
import ComponentLowering.Report.Log
import ComponentLowering.Style.Plan
import ComponentLowering.Syntax.Printer

namespace ComponentLowering.Lowering

open ComponentLowering.Code ComponentLowering.Component ComponentLowering.Report
open ComponentLowering.Settings ComponentLowering.Style ComponentLowering.Syntax

/-- A component that was lowered. -/
structure Summary where
  className : String
  tag : String
deriving DecidableEq, Repr, Inhabited

/-- The components of a module in the order of the text, and what was wrong with its classes. -/
structure LoweringReport where
  components : List Summary := []
  diagnostics : List Diagnostic := []
deriving DecidableEq, Repr, Inhabited

namespace LoweringReport

/-- Whether a class could not be lowered. -/
def hasErrors (r : LoweringReport) : Bool := r.diagnostics.any Diagnostic.isError

/-- Reports one after the other. -/
def append (r s : LoweringReport) : LoweringReport :=
  { components := r.components ++ s.components, diagnostics := r.diagnostics ++ s.diagnostics }

end LoweringReport

/-- A computation that sends messages and may fail. -/
abbrev Logging (α : Type) := ExceptT Failure (StateM Log) α

/-- Sends a message. -/
def note (level : LogLevel) (message : String) : Logging PUnit :=
  modifyThe Log (· ++ [LogEntry.mk level message])

/-- Sends a diagnostic. -/
def noteDiagnostic (d : Diagnostic) : Logging PUnit :=
  note (if d.isError then .error else .warn) d.display

/-- Gives what does not fail. -/
def lift {α : Type} (result : Except Failure α) : Logging α :=
  match result with
  | .ok value => pure value
  | .error failure => throw failure

/-- A number in a message. -/
def count (n : Nat) : String := String.ofList (Nat.toDigits 10 n)

/-- What statements become. -/
structure LoweredBody where
  state : ModuleState
  statements : List Stmt
  styleImports : List String
  report : LoweringReport

/-- What a statement becomes that is not lowered. -/
def unchanged (s : ModuleState) (statement : Stmt) (diagnostics : List Diagnostic) : LoweredBody :=
  { state := s, statements := [statement], styleImports := [], report := { diagnostics } }

/-- The styles of a component, if they are wanted. -/
def planStyles (options : Options) (c : Component) (l : Ledger) : Option Plan × Ledger :=
  match options.style, c.styles with
  | .static, some refs => plan c.className refs options.convention l
  | _, _ => (none, l)

/-- Lowers the class statement of a component. -/
def lowerComponent (options : Options) (statement : Stmt) (decl : ClassDef) (c : Component)
    (s : ModuleState) : Logging LoweredBody := do
  note .debug ("lazy: rewriting <" ++ c.tag ++ "> (" ++ count c.members.length
    ++ " annotated member(s))")
  c.warnings.forM noteDiagnostic
  let s := match componentOffset? statement with
    | some offset => s.moveComments offset statement.span.start
    | none => s
  let lowered ← lift (lowerClass decl c s)
  lowered.warnings.forM noteDiagnostic
  let shaped ← lift (shapeClass options c.className (withClass lowered.decl statement))
  let (styles, ledger) := planStyles options c lowered.state.styles
  let assignment ← match styles with
    | some p => do pure [← lift (Code.statement p.assignment)]
    | none => pure []
  return {
    state := { lowered.state with styles := ledger }
    statements := shaped :: assignment
    styleImports := (styles.map (·.imports)).getD []
    report := {
      components := [{ className := c.className, tag := c.tag }]
      diagnostics := c.warnings ++ lowered.warnings } }

/-- Lowers a statement of a module with the given text. -/
def lowerStatement (source : List Char) (options : Options) (statement : Stmt) (s : ModuleState) :
    Logging LoweredBody :=
  match class? statement with
  | none => return unchanged s statement []
  | some decl =>
    match readClass source decl with
    | .plain => return unchanged s statement []
    | .skipped reason => do
      noteDiagnostic reason
      return unchanged s statement [reason]
    | .component c => lowerComponent options statement decl c s

/-- Lowers statements one after the other. -/
def lowerStatements (source : List Char) (options : Options) :
    List Stmt → ModuleState → Logging LoweredBody
  | [], s => return { state := s, statements := [], styleImports := [], report := {} }
  | statement :: rest, s => do
    let here ← lowerStatement source options statement s
    let more ← lowerStatements source options rest here.state
    return {
      state := more.state
      statements := here.statements ++ more.statements
      styleImports := here.styleImports ++ more.styleImports
      report := here.report.append more.report }

/-- The state in which the names of the module are taken. -/
def initialState (body : List Stmt) : ModuleState :=
  (moduleNames body).foldl ModuleState.reserve {}

/-- Puts the imports of the core module and of the style sheets in front of the statements that
need them. -/
def withImports (convention : Convention) (core styles body : List Stmt) : List Stmt :=
  match convention with
  | .esm =>
    let k := afterLastImport body
    core ++ body.take k ++ styles ++ body.drop k
  | .cjs => styles ++ core ++ body

/-- The comments of a module in which classes were lowered. -/
def anchoredComments (m : Module) (moves : List CommentMove) : Module :=
  let m := { m with comments := relocateAll moves m.comments }
  match m.body with
  | [] => m
  | first :: _ => pinHeader m (leadingOffset first)

/-- Puts what lowered statements need from other modules among the statements that are left. -/
def importNeeded (options : Options) (lowered : LoweredBody) (body : List Stmt) :
    Except Failure (List Stmt) := do
  let styles ← Code.statements ("\n".intercalate lowered.styleImports)
  let core ← match coreStatement? options.convention options.corePath lowered.state.used with
    | some text => do pure [← Code.statement text]
    | none => pure []
  return withImports options.convention core styles body

/-- Lowers the components of a module.  A module without components stays as it is. -/
def lowerModule (options : Options) (m : Module) : Logging (LoweringReport × Module) := do
  let lowered ← lowerStatements m.source options m.body (initialState m.body)
  if lowered.report.components.isEmpty then return (lowered.report, m)
  let (kept, removed) := pruneImports options.corePath lowered.statements
  if removed ≠ 0 then
    note .debug ("lazy: removed " ++ count removed ++ " decorator import(s)")
  let body ← lift (importNeeded options lowered kept)
  note .info ("lazy: " ++ count lowered.report.components.length ++ " component(s), "
    ++ count lowered.state.styles.sheets.length ++ " style import(s), "
    ++ count lowered.report.diagnostics.length ++ " diagnostic(s)")
  return (lowered.report, { anchoredComments m lowered.state.moves with body })

/-- The text of a lowered module with its report. -/
structure Output where
  code : String
  report : LoweringReport
deriving DecidableEq, Repr, Inhabited

/-- Lowers the text of a module.  A text without components comes back as it is. -/
def lowerText (options : Options) (file : String) (source : String) : Logging Output := do
  match Module.read (.ofPath file) source.toList with
  | .error e => throw (.unreadable file (describe e))
  | .ok m =>
    let (report, lowered) ← lowerModule options m
    let code := if report.components.isEmpty then source else lowered.print
    return { code, report }

/-- The result of lowering a text, and all messages that were sent. -/
def runLowering (options : Options) (file : String) (source : String) :
    Except Failure Output × Log :=
  (lowerText options file source).run.run []

end ComponentLowering.Lowering
