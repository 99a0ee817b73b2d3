/-
# Components that cannot be written

Whatever a module holds, the text that lowering makes up is read as it is meant, with one exception.
In a script a class may be called `await`, while the text is read as a module, where that word waits.
Lowering such a component fails if its name has to be written: as the name of a constant or of a class
declaration, or in front of the styles that are attached to it.
-/
import ComponentLowering.Proofs.Lowering.SecondRun
import ComponentLowering.Proofs.Syntax.ReadClasses

namespace ComponentLowering.Lowering

open ComponentLowering.Code ComponentLowering.Component ComponentLowering.Report
open ComponentLowering.Settings ComponentLowering.Style ComponentLowering.Syntax

variable {α β : Type} {P Q : Prop} {source : List Char} {options : Options}

/-! ### Computations that succeed under a condition -/

/-- Whether a failure is that of made-up text which cannot be read. -/
def IsUnbuildable (failure : Failure) : Prop :=
  ∃ snippet message, failure = .unbuildable snippet message

/-- Whether a computation ends with a value if a condition holds, and fails over made-up text if it
does not, whatever messages were sent before it. -/
def SucceedsIff (x : Logging α) (P : Prop) : Prop :=
  ∀ log, (P ∧ ∃ a log', x.run.run log = (.ok a, log')) ∨
    (¬ P ∧ ∃ failure log', x.run.run log = (.error failure, log') ∧ IsUnbuildable failure)

theorem SucceedsIff.congr {x : Logging α} (h : SucceedsIff x P) (iff : P ↔ Q) : SucceedsIff x Q := by
  simpa only [SucceedsIff, iff] using h

theorem SucceedsIff.bind {x : Logging α} {f : α → Logging β} (first : SucceedsIff x P)
    (later : P → ∀ a, Gives x a → SucceedsIff (f a) Q) : SucceedsIff (x >>= f) (P ∧ Q) := by
  intro log
  rcases first log with ⟨holds, a, between, run⟩ | ⟨fails, failure, log', run, unbuildable⟩
  · rw [run_bind run]
    rcases later holds a ⟨log, between, run⟩ between with ⟨holds', ends⟩ | ⟨fails, ends⟩
    · exact .inl ⟨⟨holds, holds'⟩, ends⟩
    · exact .inr ⟨fun both => fails both.2, ends⟩
  · exact .inr ⟨fun both => fails both.1, failure, log', run_bind_error f run, unbuildable⟩

/-- What comes behind a computation that always succeeds decides. -/
theorem SucceedsIff.then {x : Logging α} {f : α → Logging β} (first : SucceedsIff x True)
    (later : ∀ a, Gives x a → SucceedsIff (f a) P) : SucceedsIff (x >>= f) P :=
  (first.bind fun _ => later).congr ⟨And.right, fun h => ⟨trivial, h⟩⟩

/-- What comes in front of a computation that always succeeds decides. -/
theorem SucceedsIff.before {x : Logging α} {f : α → Logging β} (first : SucceedsIff x P)
    (later : P → ∀ a, Gives x a → SucceedsIff (f a) True) : SucceedsIff (x >>= f) P :=
  (first.bind later).congr (and_iff_left trivial)

theorem succeedsIff_pure (a : α) : SucceedsIff (pure a : Logging α) True :=
  fun log => .inl ⟨trivial, a, log, rfl⟩

theorem succeedsIff_note (level : LogLevel) (message : String) :
    SucceedsIff (note level message) True :=
  fun _ => .inl ⟨trivial, _, _, rfl⟩

theorem succeedsIff_noteDiagnostics (ds : List Diagnostic) :
    SucceedsIff (ds.forM noteDiagnostic) True := by
  induction ds with
  | nil => exact succeedsIff_pure _
  | cons d rest ih => exact (succeedsIff_note _ _).then fun _ _ => ih

theorem succeedsIff_lift {result : Except Failure α} (ok : P → ∃ a, result = .ok a)
    (error : ¬ P → ∃ failure, result = .error failure)
    (unbuildable : ∀ failure, result = .error failure → IsUnbuildable failure) :
    SucceedsIff (lift result) P := by
  intro log
  by_cases holds : P
  · obtain ⟨a, rfl⟩ := ok holds
    exact .inl ⟨holds, a, log, rfl⟩
  · obtain ⟨failure, rfl⟩ := error holds
    exact .inr ⟨holds, failure, log, rfl, unbuildable failure rfl⟩

theorem succeedsIff_lift_ok {result : Except Failure α} {a : α} (h : result = .ok a) :
    SucceedsIff (lift result) True := by
  rw [h]
  exact succeedsIff_pure a

/-- Reading made-up text can only fail over that text. -/
theorem isUnbuildable_of_statement {text : String} {failure : Failure}
    (h : Code.statement text = .error failure) : IsUnbuildable failure := by
  unfold Code.statement Code.statements at h
  cases read : Module.read .plain text.toList with
  | error e =>
      rw [read] at h
      cases h
      exact ⟨_, _, rfl⟩
  | ok m =>
      rw [read] at h
      dsimp only [bind, Except.bind] at h
      split at h
      · cases h
      · cases h
        exact ⟨_, _, rfl⟩

theorem isUnbuildable_of_shapeClass {className : String} {s : Stmt} {failure : Failure}
    (h : shapeClass options className s = .error failure) : IsUnbuildable failure := by
  unfold shapeClass at h
  dsimp only at h
  split at h
  · cases h
  · rename_i text _
    cases read : Code.statement text with
    | error failure' =>
        rw [read] at h
        cases h
        exact isUnbuildable_of_statement read
    | ok frame =>
        rw [read] at h
        dsimp only [bind, Except.bind] at h
        split at h
        · cases h
        · cases h
          exact ⟨_, _, rfl⟩

/-! ### Classes whose name is written -/

/-- Whether lowering a statement has to write the name of a component that is called `await`: to give
the class another form, or to attach styles to it. -/
def IsRefused (source : List Char) (options : Options) (statement : Stmt) : Prop :=
  ∃ c, component? source statement = some c ∧ c.className = "await" ∧
    (classShape options statement ≠ .unchanged ∨ (attached? options c).isSome = true)

theorem isRefused_iff {statement : Stmt} {c : Component}
    (accepted : component? source statement = some c) :
    IsRefused source options statement ↔ c.className = "await" ∧
      (classShape options statement ≠ .unchanged ∨ (attached? options c).isSome = true) := by
  simp [IsRefused, accepted]

theorem not_isRefused_of_none {statement : Stmt} (other : component? source statement = none) :
    ¬ IsRefused source options statement := by
  simp [IsRefused, other]

/-- A class that was read is only refused for being called `await`. -/
theorem refusesName_iff {className : String} {shape : ClassShape}
    (notImplements : className ≠ "implements") :
    refusesName className shape ↔ className = "await" ∧ shape ≠ .unchanged := by
  cases shape <;> simp [refusesName, notImplements]

variable {isAwait : Bool} {decl : ClassDef} {c : Component} {statement : Stmt} {s : ModuleState}

/-- No member that holds the element is named like the constructor. -/
theorem constructor_not_mem (read : Parser.IsRead isAwait decl)
    (reads : readClass source decl = .component c) : "constructor" ∉ c.elementMembers := by
  rw [(isReadAs_of_component reads).elementMembers]
  intro mem
  obtain ⟨f, here, name⟩ := List.mem_filterMap.mp mem
  have plain := read.members (.field f) (mem_fields.mp here)
  rw [Parser.isPlainlyNamed_field, Bool.not_eq_true', Key.isConstructorName] at plain
  unfold markedName? fieldName at name
  cases key : f.key <;> simp_all [Key.isNamed]

/-- The name of a component that was read. -/
theorem className_of_isRead (read : Parser.IsRead isAwait decl)
    (reads : readClass source decl = .component c) :
    c.className ≠ "implements" ∧ (isAwait = true → c.className ≠ "await") := by
  obtain ⟨n, eq, name⟩ := Option.map_eq_some_iff.mp (isReadAs_of_component reads).name
  rw [← name]
  refine ⟨read.notImplements n eq, fun isAwait => read.notAwait isAwait ?_ n eq⟩
  intro none
  rw [readClass_of_not_mem (by simp [none])] at reads
  cases reads

/-- The class statement of a component can be given its form unless the name of the class is written
and refused. -/
theorem succeedsIff_shapeClass {content : ClassDef} {s : Stmt} {className : String}
    (binding : isBindingName className = true) (notImplements : className ≠ "implements")
    (cls : class? s = some content) :
    SucceedsIff (lift (shapeClass options className s))
      (¬ (className = "await" ∧ classShape options s ≠ .unchanged)) := by
  refine SucceedsIff.congr ?_ (not_congr (refusesName_iff notImplements))
  refine succeedsIff_lift (fun allowed => ⟨_, shapeClass_eq binding cls allowed⟩)
    (fun refused => ?_) fun failure => isUnbuildable_of_shapeClass
  exact shapeClass_error binding (not_not.mp refused)

/-- Styles can be attached to any class that is not called `await`. -/
theorem succeedsIff_assignment {className : String} {bindings : List Binding} (refs : Refs)
    (binding : isBindingName className = true) (names : ∀ b ∈ bindings, IsSheetName b.name)
    (nonempty : bindings ≠ []) :
    SucceedsIff (lift (Code.statement (className ++ ".style = " ++ styleValue refs bindings ++ ";")))
      (className ≠ "await") := by
  refine succeedsIff_lift (fun other => ⟨_, statement_assignment refs binding other names nonempty⟩)
    (fun await => ?_) fun failure => isUnbuildable_of_statement
  rw [not_not.mp await]
  exact statement_assignment_await refs names

/-- A component is lowered unless its name is written and refused. -/
theorem succeedsIff_lowerComponent (cls : class? statement = some decl)
    (reads : readClass source decl = .component c) (read : Parser.IsRead isAwait decl)
    (named : s.styles.IsNamed) :
    SucceedsIff (lowerComponent options statement decl c s)
      (¬ IsRefused source options statement) := by
  have accepted : component? source statement = some c := by simp [component?, cls, reads]
  have binding := isBindingName_of_component reads
  have notImplements := (className_of_isRead read reads).1
  obtain ⟨lowered, lowers, -⟩ :=
    (lowerClass_eq decl c (movedState statement s)).1 (constructor_not_mem read reads)
  have styles : lowered.state.styles = s.styles :=
    (lowerClass_state lowers).2.trans (movedState_used statement s).2
  have shape := @succeedsIff_shapeClass options _ _ _ binding notImplements
    (class?_withClass lowered.decl cls)
  rw [classShape_withClass] at shape
  unfold lowerComponent
  refine (succeedsIff_note _ _).then fun _ _ => (succeedsIff_noteDiagnostics _).then fun _ _ =>
    (succeedsIff_lift_ok lowers).then fun lowered' gives => ?_
  obtain rfl : lowered' = lowered := Except.ok.inj ((gives_lift.mp gives).symm.trans lowers)
  refine (succeedsIff_noteDiagnostics _).then fun _ _ => ?_
  rw [styles, isRefused_iff accepted]
  cases attached : attached? options c with
  | none =>
      rw [planStyles_eq, attached]
      refine SucceedsIff.congr (shape.before fun _ new _ => ?_) (by simp)
      exact (succeedsIff_pure _).then fun _ _ => succeedsIff_pure _
  | some refs =>
      obtain ⟨texts, bindings, ledger, plans, -, names, -, nonempty, -⟩ :=
        planStyles_attached named (isWordText_of_isBindingName binding) attached
      rw [plans]
      refine SucceedsIff.congr (shape.bind fun _ new _ => ?_ :
        SucceedsIff _ (_ ∧ c.className ≠ "await")) ?_
      · refine (succeedsIff_assignment refs binding names nonempty).before fun _ t _ => ?_
        exact (succeedsIff_pure _).then fun _ _ => succeedsIff_pure _
      · simp only [Option.isSome_some, or_true, and_true]
        exact ⟨And.right, fun other => ⟨fun await => other await.1, other⟩⟩

/-! ### Modules -/

theorem succeedsIff_lowerStatement {statement : Stmt} {s : ModuleState}
    (read : Parser.IsReadStatement isAwait statement) (named : s.styles.IsNamed) :
    SucceedsIff (lowerStatement source options statement s)
      (¬ IsRefused source options statement) := by
  unfold lowerStatement
  cases cls : class? statement with
  | none =>
      have other : component? source statement = none := by simp [component?, cls]
      exact (succeedsIff_pure _).congr (by simp [not_isRefused_of_none other])
  | some decl =>
      dsimp only
      cases reads : readClass source decl with
      | plain =>
          have other : component? source statement = none := by simp [component?, cls, reads]
          exact (succeedsIff_pure _).congr (by simp [not_isRefused_of_none other])
      | skipped reason =>
          have other : component? source statement = none := by simp [component?, cls, reads]
          refine SucceedsIff.congr ((succeedsIff_note _ _).then fun _ _ => succeedsIff_pure _) ?_
          simp [not_isRefused_of_none other]
      | component c => exact succeedsIff_lowerComponent cls reads (read decl cls) named

/-- Statements are lowered one after the other, up to the first whose name is refused. -/
theorem succeedsIff_lowerStatements {body : List Stmt} {s : ModuleState}
    (read : ∀ t ∈ body, Parser.IsReadStatement isAwait t) (named : s.styles.IsNamed) :
    SucceedsIff (lowerStatements source options body s)
      (∀ t ∈ body, ¬ IsRefused source options t) := by
  induction body generalizing s with
  | nil => exact (succeedsIff_pure _).congr (by simp)
  | cons statement rest ih =>
      rw [List.forall_mem_cons] at read ⊢
      refine (succeedsIff_lowerStatement read.1 named).bind fun _ here gives => ?_
      have one := lowers_statement named gives
      exact (ih read.2 one.styles.named).before fun _ more _ => succeedsIff_pure _

theorem succeedsIff_lowerModule {m : Module}
    (read : ∀ t ∈ m.body, Parser.IsReadStatement isAwait t) :
    SucceedsIff (lowerModule options m) (∀ t ∈ m.body, ¬ IsRefused m.source options t) := by
  unfold lowerModule
  refine (succeedsIff_lowerStatements read (initialState_eq m.body).1).before
    fun _ lowered gives => ?_
  split
  · exact succeedsIff_pure _
  · rename_i nonempty
    have needed := importNeeded_lowerStatements gives (by simpa using nonempty)
    have rest (kept : List Stmt) :=
      (succeedsIff_lift_ok (needed kept)).then fun body _ =>
        (succeedsIff_note .info ("lazy: " ++ count lowered.report.components.length
          ++ " component(s), " ++ count lowered.state.styles.sheets.length ++ " style import(s), "
          ++ count lowered.report.diagnostics.length ++ " diagnostic(s)")).then fun _ _ =>
            succeedsIff_pure (lowered.report,
              { anchoredComments m lowered.state.moves with body })
    dsimp only
    split
    · exact (succeedsIff_note _ _).then fun _ _ => rest _
    · exact rest _

theorem succeedsIff_lowerText {file text : String} {m : Module}
    (read : Module.read (.ofPath file) text.toList = .ok m) :
    SucceedsIff (lowerText options file text) (∀ t ∈ m.body, ¬ IsRefused m.source options t) := by
  unfold lowerText
  rw [read]
  exact (succeedsIff_lowerModule fun t mem => isReadStatement_of_read read mem).before
    fun _ lowered _ => succeedsIff_pure _

/-- When lowering a text that can be read succeeds: if and only if no component called `await` needs its
name written.  Such a component stands only in a script, and every failure is that of the text made up
for one. -/
theorem runLowering_succeeds_iff {file text : String} {m : Module}
    (read : Module.read (.ofPath file) text.toList = .ok m) :
    ((∃ out log, runLowering options file text = (.ok out, log)) ↔
      ∀ t ∈ m.body, ¬ IsRefused m.source options t) ∧
    ((Dialect.ofPath file).script = false → ∀ t ∈ m.body, ¬ IsRefused m.source options t) ∧
    ∀ failure log, runLowering options file text = (.error failure, log) →
      IsUnbuildable failure := by
  have ends : (_ ∧ ∃ out log, runLowering options file text = (.ok out, log)) ∨
      (¬ _ ∧ ∃ failure log, runLowering options file text = (.error failure, log) ∧
        IsUnbuildable failure) :=
    succeedsIff_lowerText read []
  refine ⟨?_, ?_, ?_⟩
  · rcases ends with ⟨free, succeeds⟩ | ⟨refused, failure, log, run, -⟩
    · exact iff_of_true succeeds free
    · refine iff_of_false ?_ refused
      rintro ⟨out, log', run'⟩
      rw [run] at run'
      cases run'
  · rintro modules t mem ⟨c, accepted, await, -⟩
    cases cls : class? t with
    | none => simp [component?, cls] at accepted
    | some decl =>
        have isRead := isReadStatement_of_read read mem decl cls
        have reads := readClass_of_component? accepted cls
        exact (className_of_isRead isRead reads).2 (by simp [modules]) await
  · intro failure log run
    rcases ends with ⟨-, out, log', run'⟩ | ⟨-, failure', log', run', unbuildable⟩
    · rw [run] at run'
      cases run'
    · rw [run] at run'
      cases run'
      exact unbuildable

/-! ### A class that is called `await` -/

/-- A script with a component that is called `await` and has a style sheet. -/
def awaited : String :=
  "@Component(\x7b tag: 'a-a', styleUrl: 'a.css' \x7d)\nclass await \x7b\x7d\n"

/-- Whether lowering a text fails over a snippet. -/
def failsOver (options : Options) (file text snippet : String) : Bool :=
  match (runLowering options file text).1 with
  | .error (.unbuildable s _) => s == snippet
  | _ => false

theorem awaited_read :
    ∃ m, Module.read (.ofPath "a.cjs") awaited.toList = .ok m ∧
      failsOver requiring "a.cjs" awaited "await.style = AWAIT__a_css;" = true :=
  exists_of_read (by decide +kernel)

/-- The script can be read, and is not lowered: the assignment of its styles cannot be read. -/
theorem awaited_isUnbuildable :
    ∃ m, Module.read (.ofPath "a.cjs") awaited.toList = .ok m ∧
      ∃ message log, runLowering requiring "a.cjs" awaited =
        (.error (.unbuildable "await.style = AWAIT__a_css;" message), log) := by
  obtain ⟨m, read, fails⟩ := awaited_read
  refine ⟨m, read, ?_⟩
  unfold failsOver at fails
  rcases run : runLowering requiring "a.cjs" awaited with ⟨result, log⟩
  rw [run] at fails
  dsimp only at fails
  split at fails
  · rename_i snippet message
    exact ⟨message, log, by rw [beq_iff_eq.mp fails]⟩
  · cases fails

/-- The script can be read, so it is known when it is lowered. -/
theorem awaited_succeeds_iff :
    ∃ m, Module.read (.ofPath "a.cjs") awaited.toList = .ok m ∧
      ((∃ out log, runLowering requiring "a.cjs" awaited = (.ok out, log)) ↔
        ∀ t ∈ m.body, ¬ IsRefused m.source requiring t) ∧
      ((Dialect.ofPath "a.cjs").script = false →
        ∀ t ∈ m.body, ¬ IsRefused m.source requiring t) ∧
      ∀ failure log, runLowering requiring "a.cjs" awaited = (.error failure, log) →
        IsUnbuildable failure := by
  obtain ⟨m, read, -⟩ := awaited_read
  exact ⟨m, read, runLowering_succeeds_iff read⟩

end ComponentLowering.Lowering
