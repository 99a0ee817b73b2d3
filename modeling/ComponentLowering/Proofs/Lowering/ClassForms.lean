/-
# Lowered modules under other options

Options choose the form of class statements, the imports that are added or dropped, and whether styles
are attached.  The report, the comments and what is inside of the classes do not depend on them.  The
head of a class does: where the class is put into another statement, what it implements and the
arguments of its superclass are left behind.
-/
import ComponentLowering.Proofs.Lowering.DeclaredNames
import ComponentLowering.Proofs.Lowering.ReportAndMoves

namespace ComponentLowering.Lowering

open ComponentLowering.Component ComponentLowering.Report ComponentLowering.Settings
open ComponentLowering.Style ComponentLowering.Syntax ComponentLowering.Syntax.Parser

variable {source : List Char} {options options' : Options}

/-! ### What forms do to classes -/

/-- Whether classes agree in all that a class which fills another one brings along. -/
structure SameContent (decl decl' : ClassDef) : Prop where
  members : decl.members = decl'.members
  superClass : decl.superClass = decl'.superClass
  typeParams : decl.typeParams = decl'.typeParams
  decorators : decl.decorators = decl'.decorators

theorem SameContent.symm {decl decl' : ClassDef} (h : SameContent decl decl') :
    SameContent decl' decl :=
  ⟨h.members.symm, h.superClass.symm, h.typeParams.symm, h.decorators.symm⟩

theorem SameContent.trans {a b c : ClassDef} (h : SameContent a b) (h' : SameContent b c) :
    SameContent a c :=
  ⟨h.members.trans h'.members, h.superClass.trans h'.superClass, h.typeParams.trans h'.typeParams,
    h.decorators.trans h'.decorators⟩

/-- The words in front of a class, the type arguments of its superclass, and what it implements. -/
structure ClassHead where
  declared : Bool
  isAbstract : Bool
  superTypeArgs : List TypeNode
  interfaces : List TypeNode

/-- The head of a class. -/
def ClassHead.of (decl : ClassDef) : ClassHead where
  declared := decl.declared
  isAbstract := decl.isAbstract
  superTypeArgs := decl.superTypeArgs
  interfaces := decl.interfaces

/-- The head of a class that is filled. -/
def ClassHead.blank : ClassHead := ⟨false, false, [], []⟩

/-- Whether the class of a statement is put into another statement. -/
def isRemade (options : Options) (statement : Stmt) : Bool :=
  classShape options statement != .unchanged

theorem isRemade_withClass (new : ClassDef) (statement : Stmt) :
    isRemade options (withClass new statement) = isRemade options statement := by
  unfold isRemade
  rw [classShape_withClass]

variable {statement : Stmt} {decl lowered : ClassDef} {className : String}

theorem sameContent_emittedClass (named : isBindingName className = true) :
    SameContent (emittedClass options className named lowered statement) lowered := by
  unfold emittedClass
  split <;> exact ⟨rfl, rfl, rfl, rfl⟩

/-- A class that is put into another statement leaves its head behind. -/
theorem headOf_emittedClass (named : isBindingName className = true) :
    ClassHead.of (emittedClass options className named lowered statement) =
      if isRemade options statement then .blank else .of lowered := by
  unfold emittedClass isRemade
  cases classShape options statement <;> rfl

/-- The heads that a class has under two options agree exactly if it is put into another statement under
both or under neither, or has nothing to leave behind. -/
theorem headOf_emittedClass_eq_iff (named : isBindingName className = true) :
    ClassHead.of (emittedClass options className named lowered (withClass lowered statement)) =
        ClassHead.of (emittedClass options' className named lowered (withClass lowered statement)) ↔
      isRemade options statement = isRemade options' statement ∨ ClassHead.of lowered = .blank := by
  rw [headOf_emittedClass, headOf_emittedClass, isRemade_withClass, isRemade_withClass]
  cases isRemade options statement <;> cases isRemade options' statement <;>
    simp [eq_comm (a := ClassHead.blank)]

/-! ### What a statement contributes under two options -/

/-- How the pieces that a statement contributes under two options belong together. -/
inductive Alike (source : List Char) (options options' : Options) :
    Stmt → List Stmt × List Stmt → Prop
  /-- A statement that declares no component contributes itself. -/
  | unchanged {statement : Stmt} (other : component? source statement = none) :
      Alike source options options' statement ([statement], [statement])
  /-- A component contributes a class statement of its name.  The classes agree in their members, their
  superclass, their type parameters and their decorators; their heads agree only under a condition. -/
  | component {statement new new' : Stmt} {decl held held' : ClassDef} {c : Component}
      {assigned assigned' : List Stmt} (accepted : component? source statement = some c)
      (cls : class? statement = some decl)
      (names : statementNames new = [c.className]) (names' : statementNames new' = [c.className])
      (holds : heldClass? new = some held) (holds' : heldClass? new' = some held')
      (content : SameContent held held')
      (heads : ClassHead.of held = ClassHead.of held' ↔
        isRemade options statement = isRemade options' statement ∨ ClassHead.of decl = .blank)
      (assigns : Assigns options c assigned) (assigns' : Assigns options' c assigned') :
      Alike source options options' statement (new :: assigned, new' :: assigned')

/-- A component contributes the statement that is emitted for its lowered class, and the assignment of
its styles. -/
theorem contributes_component {piece : List Stmt} {c : Component}
    (accepted : component? source statement = some c) (cls : class? statement = some decl)
    (h : Contributes source options statement piece) :
    ∃ (named : isBindingName c.className = true) (s : ModuleState) (lowered : LoweredClass)
      (assigned : List Stmt), lowerClass decl c s = .ok lowered ∧ Assigns options c assigned ∧
        piece = emitted options c.className named lowered.decl (withClass lowered.decl statement) ::
          assigned := by
  obtain ⟨other, -⟩ | ⟨c', named, decl', s, lowered, assigned, accepted', cls', lowers, assigns, eq⟩ :=
    contributes_cases h
  · rw [accepted] at other
    cases other
  · rw [accepted] at accepted'
    rw [cls] at cls'
    cases accepted'
    cases cls'
    exact ⟨named, s, lowered, assigned, lowers, assigns, eq⟩

theorem alike_of_contributes {piece piece' : List Stmt}
    (h : Contributes source options statement piece)
    (h' : Contributes source options' statement piece') :
    Alike source options options' statement (piece, piece') := by
  cases accepted : component? source statement with
  | none =>
      have same {o : Options} {p : List Stmt} (h : Contributes source o statement p) :
          p = [statement] := by
        obtain ⟨-, eq⟩ | ⟨c, _, _, _, _, _, accepted', -⟩ := contributes_cases h
        · exact eq
        · rw [accepted] at accepted'
          cases accepted'
      rw [same h, same h']
      exact .unchanged accepted
  | some c =>
      obtain ⟨decl, cls⟩ : ∃ decl, class? statement = some decl := by
        cases cls : class? statement with
        | none => simp [component?, cls] at accepted
        | some decl => exact ⟨decl, rfl⟩
      obtain ⟨named, s, lowered, assigned, lowers, assigns, rfl⟩ :=
        contributes_component accepted cls h
      obtain ⟨-, s', lowered', assigned', lowers', assigns', rfl⟩ :=
        contributes_component accepted cls h'
      rw [← (lowerClass_unique lowers lowers').1]
      have name := (isReadAs_of_component (readClass_of_component? accepted cls)).name
      have rest := (lowerClass_ok lowers).rest
      have names (o : Options) : statementNames (emitted o c.className named lowered.decl
          (withClass lowered.decl statement)) = [c.className] := by
        rw [statementNames_emitted named cls name (by rw [rest]), statementNames_of_class? cls, name]
        rfl
      have head : ClassHead.of lowered.decl = ClassHead.of decl := by
        rw [rest]
        rfl
      exact .component accepted cls (names options) (names options')
        (heldClass?_emitted named cls) (heldClass?_emitted named cls)
        ((sameContent_emittedClass named).trans (sameContent_emittedClass named).symm)
        (by rw [headOf_emittedClass_eq_iff, head]) assigns assigns'

theorem exists_alike {body : List Stmt} {pieces pieces' : List (List Stmt)}
    (h : List.Forall₂ (Contributes source options) body pieces)
    (h' : List.Forall₂ (Contributes source options') body pieces') :
    ∃ pairs, List.Forall₂ (Alike source options options') body pairs ∧
      pairs.map (·.1) = pieces ∧ pairs.map (·.2) = pieces' := by
  induction h generalizing pieces' with
  | nil =>
      cases h'
      exact ⟨[], .nil, rfl, rfl⟩
  | @cons statement piece rest pieces contributes _ ih =>
      cases h' with
      | @cons _ piece' _ pieces' contributes' others' =>
          obtain ⟨pairs, alike, first, second⟩ := ih others'
          exact ⟨(piece, piece') :: pairs, .cons (alike_of_contributes contributes contributes') alike,
            congrArg _ first, congrArg _ second⟩

/-! ### Two runs -/

/-- Whether the body of a module is laid out from some statements, by the options under which the
components of another module were lowered. -/
def IsLaidOut (options : Options) (m : Module) (statements : List Stmt) (out : Module) : Prop :=
  ∃ sheets : List Sheet,
    LaidOut
      (coreBinding options.convention options.corePath
        (coreFunctions (m.body.filterMap (component? m.source))))
      (sheets.map fun s => sheetImport options.convention s.name s.path)
      (pruneImports options.corePath statements).1 options.convention out.body

/-- A module that is lowered under two options.  The reports are the same, and so are the modules apart
from their bodies, which are laid out from pieces that belong together one by one. -/
theorem lowerModule_alike {m out out' : Module} {report report' : LoweringReport}
    {log log' other other' : Log}
    (run : (lowerModule options m).run.run log = (.ok (report, out), log'))
    (run' : (lowerModule options' m).run.run other = (.ok (report', out'), other')) :
    report' = report ∧ out' = { out with body := out'.body } ∧
      (report.components = [] → out = m ∧ out' = m) ∧
      (report.components ≠ [] → ∃ pairs,
        List.Forall₂ (Alike m.source options options') m.body pairs ∧
          IsLaidOut options m (pairs.flatMap (·.1)) out ∧
          IsLaidOut options' m (pairs.flatMap (·.2)) out') := by
  have gives : Gives (lowerModule options m) (report, out) := ⟨log, log', run⟩
  have gives' : Gives (lowerModule options' m) (report', out') := ⟨other, other', run'⟩
  obtain rfl : report' = report :=
    (lowerModule_report gives').trans (lowerModule_report gives).symm
  obtain ⟨-, -, -, unchanged, -⟩ := lowerModule_ok gives
  obtain ⟨-, -, -, unchanged', -⟩ := lowerModule_ok gives'
  refine ⟨rfl, ?_, fun none => ⟨unchanged none, unchanged' none⟩, fun nonempty => ?_⟩
  · by_cases none : report'.components = []
    · obtain rfl := unchanged none
      obtain rfl := unchanged' none
      rfl
    · rw [lowerModule_frame gives none, lowerModule_frame gives' none]
  · obtain ⟨lowered, pieces, -, contribute, -, body⟩ := lowerModule_body gives nonempty
    obtain ⟨lowered', pieces', -, contribute', -, body'⟩ := lowerModule_body gives' nonempty
    obtain ⟨pairs, alike, rfl, rfl⟩ := exists_alike contribute contribute'
    refine ⟨pairs, alike, ⟨lowered.state.styles.sheets, ?_⟩, ⟨lowered'.state.styles.sheets, ?_⟩⟩
    · rw [body, ← List.flatMap_def]
      exact laidOut_withImports _ _ _ _
    · rw [body', ← List.flatMap_def]
      exact laidOut_withImports _ _ _ _

/-! ### A class with a head -/

/-- A module with a component that implements an interface and gives its superclass type arguments. -/
def implementing : String :=
  "@Component(\x7b tag: 'a-a' \x7d)\nclass A extends B<string> implements C \x7b\x7d\n"

/-- Whether a module is lowered under two options to modules that hold one class each, with different
heads. -/
def losesHead (options options' : Options) (m : Module) : Bool :=
  match (lowerModule options m).run.run [], (lowerModule options' m).run.run [] with
  | (.ok (_, out), _), (.ok (_, out'), _) =>
    match out.body.filterMap heldClass?, out'.body.filterMap heldClass? with
    | [held], [held'] =>
      held.superTypeArgs.length != held'.superTypeArgs.length &&
        held.interfaces.length != held'.interfaces.length
    | _, _ => false
  | _, _ => false

theorem of_losesHead {m : Module} (h : losesHead options options' m = true) :
    ∃ report out log report' out' log' held held',
      (lowerModule options m).run.run [] = (.ok (report, out), log) ∧
      (lowerModule options' m).run.run [] = (.ok (report', out'), log') ∧
      out.body.filterMap heldClass? = [held] ∧ out'.body.filterMap heldClass? = [held'] ∧
      held.superTypeArgs ≠ held'.superTypeArgs ∧ held.interfaces ≠ held'.interfaces := by
  unfold losesHead at h
  split at h
  · rename_i report out log report' out' log' run run'
    split at h
    · rename_i held held' holds holds'
      obtain ⟨arguments, interfaces⟩ := Bool.and_eq_true_iff.mp h
      refine ⟨report, out, log, report', out', log', held, held', run, run', holds, holds', ?_, ?_⟩
      · intro same
        simp [same] at arguments
      · intro same
        simp [same] at interfaces
    · cases h
  · cases h

theorem implementing_read :
    ∃ m, Module.read (.ofPath "a.ts") implementing.toList = .ok m ∧
      losesHead defaults requiring m = true :=
  exists_of_read (by decide +kernel)

/-- What the class implements and the type arguments of its superclass are not the same in both lowered
modules. -/
theorem implementing_losesHead :
    ∃ m report out log report' out' log' held held',
      Module.read (.ofPath "a.ts") implementing.toList = .ok m ∧
      (lowerModule defaults m).run.run [] = (.ok (report, out), log) ∧
      (lowerModule requiring m).run.run [] = (.ok (report', out'), log') ∧
      out.body.filterMap heldClass? = [held] ∧ out'.body.filterMap heldClass? = [held'] ∧
      held.superTypeArgs ≠ held'.superTypeArgs ∧ held.interfaces ≠ held'.interfaces := by
  obtain ⟨m, read, loses⟩ := implementing_read
  obtain ⟨report, out, log, report', out', log', held, held', rest⟩ := of_losesHead loses
  exact ⟨m, report, out, log, report', out', log', held, held', read, rest⟩

/-- The module is lowered under both options, so its lowered forms are alike. -/
theorem implementing_alike :
    ∃ m report out log report' out' log',
      Module.read (.ofPath "a.ts") implementing.toList = .ok m ∧
      (lowerModule defaults m).run.run [] = (.ok (report, out), log) ∧
      (lowerModule requiring m).run.run [] = (.ok (report', out'), log') ∧
      report' = report ∧ out' = { out with body := out'.body } ∧
      (report.components = [] → out = m ∧ out' = m) ∧
      (report.components ≠ [] → ∃ pairs,
        List.Forall₂ (Alike m.source defaults requiring) m.body pairs ∧
          IsLaidOut defaults m (pairs.flatMap (·.1)) out ∧
          IsLaidOut requiring m (pairs.flatMap (·.2)) out') := by
  obtain ⟨m, read, loses⟩ := implementing_read
  obtain ⟨report, out, log, report', out', log', held, held', run, run', -⟩ := of_losesHead loses
  exact ⟨m, report, out, log, report', out', log', read, run, run', lowerModule_alike run run'⟩

end ComponentLowering.Lowering
