/-
# The report and the moves of a module

Lowering threads a state through the classes of a module, and options choose the forms that the classes
take.  Neither reaches the report, the classes themselves or the places that comments move to: these are
functions of the module.
-/
import ComponentLowering.Proofs.Lowering.Layout
import ComponentLowering.Proofs.Lowering.LoweredClasses

namespace ComponentLowering.Lowering

open ComponentLowering.Component ComponentLowering.Report ComponentLowering.Settings
open ComponentLowering.Style ComponentLowering.Syntax

variable {source : List Char} {options : Options}

/-! ### One class in any state -/

/-- The state with further moves. -/
def ModuleState.withMoves (s : ModuleState) (moves : List CommentMove) : ModuleState :=
  { s with moves := s.moves ++ moves }

@[simp]
theorem ModuleState.withMoves_nil (s : ModuleState) : s.withMoves [] = s := by
  simp [ModuleState.withMoves]

@[simp]
theorem ModuleState.withMoves_withMoves (s : ModuleState) (moves more : List CommentMove) :
    (s.withMoves moves).withMoves more = s.withMoves (moves ++ more) := by
  simp [ModuleState.withMoves]

@[simp]
theorem ModuleState.withMoves_moves (s : ModuleState) (moves : List CommentMove) :
    (s.withMoves moves).moves = s.moves ++ moves := rfl

/-- The move from one place to another, unless they are the same. -/
def moveTo (source target : Nat) : List CommentMove :=
  if source == target then [] else [{ source, target }]

theorem moveComments_eq (s : ModuleState) (source target : Nat) :
    s.moveComments source target = s.withMoves (moveTo source target) := by
  unfold ModuleState.moveComments moveTo
  split
  · rw [ModuleState.withMoves_nil]
  · rfl

/-- The members of a class once the comments of a field have moved away, and where they moved. -/
def fieldMoves (offset : Nat) (members : List Member) : List Member × List CommentMove :=
  ((moveFieldComments offset members {}).1, (moveFieldComments offset members {}).2.moves)

theorem moveFieldComments_eq (offset : Nat) (members : List Member) (s : ModuleState) :
    moveFieldComments offset members s =
      ((fieldMoves offset members).1, s.withMoves (fieldMoves offset members).2) := by
  unfold fieldMoves moveFieldComments
  split
  · simp [moveComments_eq]
  · split
    · simp
    · split
      · simp
      · split <;> simp [moveComments_eq]

/-- The members of a class once the comments of some fields have moved away, and where they moved. -/
def allFieldMoves : List Nat → List Member → List Member × List CommentMove
  | [], members => (members, [])
  | offset :: rest, members =>
    let here := fieldMoves offset members
    let later := allFieldMoves rest here.1
    (later.1, here.2 ++ later.2)

theorem moveAllComments_eq (offsets : List Nat) (members : List Member) (s : ModuleState) :
    moveAllComments offsets members s =
      ((allFieldMoves offsets members).1, s.withMoves (allFieldMoves offsets members).2) := by
  induction offsets generalizing members s with
  | nil => simp [moveAllComments, allFieldMoves]
  | cons offset rest ih =>
      unfold moveAllComments allFieldMoves
      rw [moveFieldComments_eq]
      simp only [ih, ModuleState.withMoves_withMoves]

/-- What a class is lowered to, in any state: its decorators and members, the moves of its comments and
the warning about its constructor. -/
theorem lowerClass_parts {decl : ClassDef} {c : Component} {s : ModuleState}
    {lowered : LoweredClass} (h : lowerClass decl c s = .ok lowered) :
    ∃ constructed,
      installConstructor (decl.members.filter fun m => !isLoweredField c m)
        (constructorStatements c) = .ok constructed ∧
      lowered.decl = { decl with
        decorators := decl.decorators.filter fun d => !isComponentDecorator d
        members := (allFieldMoves (loweredOffsets c decl.members) constructed.members).1
          ++ appendedTrees c.formAssociated c.elementMembers } ∧
      lowered.state.moves =
        s.moves ++ (allFieldMoves (loweredOffsets c decl.members) constructed.members).2 ∧
      lowered.warnings = droppedWarning c.className constructed.dropped := by
  have read := (classMembers_appendedText c.formAssociated c.elementMembers).1
    (not_mem_elementMembers h)
  unfold lowerClass at h
  obtain ⟨constructed, installs, h⟩ := ok_of_bind h
  refine ⟨constructed, installs, ?_⟩
  simp only [moveAllComments_eq, appendedMembers_text] at h
  split at h
  · rename_i none
    cases h
    rw [appendedTrees_eq_nil none]
    refine ⟨rfl, ?_, rfl⟩
    split <;> rfl
  · rw [read] at h
    cases h
    refine ⟨rfl, ?_, rfl⟩
    split <;> rfl

/-- The state in which a class is lowered only collects the moves. -/
theorem lowerClass_unique {decl : ClassDef} {c : Component} {s s' : ModuleState}
    {lowered lowered' : LoweredClass} (h : lowerClass decl c s = .ok lowered)
    (h' : lowerClass decl c s' = .ok lowered') :
    lowered.decl = lowered'.decl ∧
      ∃ moves, lowered.state.moves = s.moves ++ moves ∧ lowered'.state.moves = s'.moves ++ moves := by
  obtain ⟨constructed, installs, eq, moves, -⟩ := lowerClass_parts h
  obtain ⟨constructed', installs', eq', moves', -⟩ := lowerClass_parts h'
  rw [installs] at installs'
  cases installs'
  exact ⟨eq.trans eq'.symm, _, moves, moves'⟩

/-- Where comments move when a class is lowered. -/
def classMoves (decl : ClassDef) (c : Component) : List CommentMove :=
  match lowerClass decl c {} with
  | .ok lowered => lowered.state.moves
  | .error _ => []

theorem classMoves_of_ok {decl : ClassDef} {c : Component} {own : LoweredClass}
    (h : lowerClass decl c {} = .ok own) : classMoves decl c = own.state.moves := by
  unfold classMoves
  simp only [h]

theorem classMoves_eq {decl : ClassDef} {c : Component} {s : ModuleState}
    {lowered : LoweredClass} (h : lowerClass decl c s = .ok lowered) :
    lowered.state.moves = s.moves ++ classMoves decl c := by
  obtain ⟨own, ok, -⟩ := (lowerClass_eq decl c {}).1 (not_mem_elementMembers h)
  obtain ⟨-, moves, here, alone⟩ := lowerClass_unique h ok
  rw [classMoves_of_ok ok, here, alone]
  rfl

/-- The number of parameters that the constructor of a class has, the first one if there are more. -/
def firstParameters (decl : ClassDef) : Nat :=
  ((constructors decl.members).head?.map parameterCount).getD 0

theorem installConstructor_dropped {members : List Member} {injected : List String}
    {constructed : Constructed} (h : installConstructor members injected = .ok constructed) :
    constructed.dropped = ((constructors members).head?.map parameterCount).getD 0 := by
  unfold installConstructor at h
  obtain ⟨made, -, h⟩ := ok_of_bind h
  split at h
  · cases h
  · cases index : constructorIndex? members with
    | none =>
        have none : constructors members = [] :=
          List.filter_eq_nil_iff.mpr fun m mem => by
            simp [List.findIdx?_eq_none_iff.mp index m mem]
        simp only [index] at h
        cases h
        simp [none]
    | some i =>
        obtain ⟨before, old, after, rfl, rfl, without, constructs⟩ := constructorIndex?_eq_some index
        have here : (before ++ old :: after)[before.length]? = some old := by simp
        have first : (constructors (before ++ old :: after)).head? = some old := by
          have none : before.filter isConstructor = [] :=
            List.filter_eq_nil_iff.mpr fun m mem => by simp [without m mem]
          rw [constructors, List.filter_append, none, List.filter_cons_of_pos constructs]
          rfl
        simp only [index, here] at h
        cases h
        rw [first]
        rfl

theorem lowerClass_warnings {decl : ClassDef} {c : Component} {s : ModuleState}
    {lowered : LoweredClass} (h : lowerClass decl c s = .ok lowered) :
    lowered.warnings = droppedWarning c.className (firstParameters decl) := by
  obtain ⟨constructed, installs, -, -, warnings⟩ := lowerClass_parts h
  rw [warnings, installConstructor_dropped installs, constructors_kept]
  rfl

/-! ### Statements -/

/-- What is reported of a statement: the component that it declares with the warnings about it, or why
its class is not lowered. -/
def statementReport (source : List Char) (statement : Stmt) : LoweringReport :=
  match (class? statement).map fun decl => (decl, readClass source decl) with
  | some (decl, .component c) =>
    { components := [{ className := c.className, tag := c.tag }]
      diagnostics := c.warnings ++ droppedWarning c.className (firstParameters decl) }
  | some (_, .skipped reason) => { diagnostics := [reason] }
  | _ => {}

/-- Where comments move when a statement is lowered. -/
def statementMoves (source : List Char) (statement : Stmt) : List CommentMove :=
  match (class? statement).map fun decl => (decl, readClass source decl) with
  | some (decl, .component c) => (movedState statement {}).moves ++ classMoves decl c
  | _ => []

/-- What is reported of some statements. -/
def bodyReport (source : List Char) (body : List Stmt) : LoweringReport :=
  body.foldr (fun s r => (statementReport source s).append r) {}

/-- Where comments move when some statements are lowered. -/
def bodyMoves (source : List Char) (body : List Stmt) : List CommentMove :=
  body.flatMap (statementMoves source)

theorem movedState_moves (statement : Stmt) (s : ModuleState) :
    (movedState statement s).moves = s.moves ++ (movedState statement {}).moves := by
  unfold movedState
  split <;> simp [moveComments_eq]

/-- Neither the options nor the state reach what is reported of a statement, and the moves of its
comments come behind those that are there. -/
theorem gives_lowerStatement {statement : Stmt} {s : ModuleState} {result : LoweredBody}
    (h : Gives (lowerStatement source options statement s) result) :
    result.report = statementReport source statement ∧
      result.state.moves = s.moves ++ statementMoves source statement := by
  unfold lowerStatement at h
  unfold statementReport statementMoves
  cases cls : class? statement with
  | none =>
      rw [cls] at h
      obtain rfl := gives_pure.mp h
      exact ⟨rfl, (List.append_nil _).symm⟩
  | some decl =>
      simp only [cls] at h
      simp only [Option.map_some]
      cases reads : readClass source decl with
      | plain =>
          rw [reads] at h
          obtain rfl := gives_pure.mp h
          exact ⟨rfl, (List.append_nil _).symm⟩
      | skipped reason =>
          rw [reads] at h
          obtain ⟨_, _, h⟩ := gives_bind h
          obtain rfl := gives_pure.mp h
          exact ⟨rfl, (List.append_nil _).symm⟩
      | component c =>
          rw [reads] at h
          obtain ⟨lowered, -, -, lowers, -, -, state, -, -, report⟩ := lowerComponent_ok h
          refine ⟨by rw [report, lowerClass_warnings lowers], ?_⟩
          rw [state]
          dsimp only
          rw [classMoves_eq lowers, movedState_moves, List.append_assoc]

/-- What is reported of some statements, and where their comments move. -/
theorem gives_lowerStatements {body : List Stmt} {s : ModuleState} {result : LoweredBody}
    (h : Gives (lowerStatements source options body s) result) :
    result.report = bodyReport source body ∧
      result.state.moves = s.moves ++ bodyMoves source body := by
  induction body generalizing s result with
  | nil =>
      obtain rfl := gives_pure.mp h
      exact ⟨rfl, (List.append_nil _).symm⟩
  | cons statement rest ih =>
      obtain ⟨here, first, h⟩ := gives_bind h
      obtain ⟨more, later, h⟩ := gives_bind h
      obtain rfl := gives_pure.mp h
      obtain ⟨report, moves⟩ := gives_lowerStatement first
      obtain ⟨report', moves'⟩ := ih later
      refine ⟨by rw [report, report']; rfl, ?_⟩
      rw [moves', moves, List.append_assoc]
      rfl

/-! ### Modules -/

theorem initialState_moves (body : List Stmt) : (initialState body).moves = [] := by
  have all (names : List String) : ∀ s : ModuleState,
      (names.foldl ModuleState.reserve s).moves = s.moves := by
    induction names with
    | nil => exact fun s => rfl
    | cons n names ih => exact fun s => ih (s.reserve n)
  exact all (moduleNames body) {}

variable {m out : Module} {report : LoweringReport}

/-- The report of a module is a function of the module. -/
theorem lowerModule_report (h : Gives (lowerModule options m) (report, out)) :
    report = bodyReport m.source m.body := by
  obtain ⟨lowered, lowers, rfl, -⟩ := lowerModule_ok h
  exact (gives_lowerStatements lowers).1

/-- Besides its body, a lowered module is a function of the module. -/
theorem lowerModule_frame (h : Gives (lowerModule options m) (report, out))
    (nonempty : report.components ≠ []) :
    out = { anchoredComments m (bodyMoves m.source m.body) with body := out.body } := by
  obtain ⟨lowered, lowers, rfl, -, needed⟩ := lowerModule_ok h
  have moves := (gives_lowerStatements lowers).2
  rw [initialState_moves, List.nil_append] at moves
  rw [← moves]
  exact (needed nonempty).1

end ComponentLowering.Lowering
