/-
# Reshaped class statements

A class statement that is given the form which options ask for stays at its place, declares its name, and
holds a class with the same content.  Only options that keep exports keep its export.  The head of the class
stays with the old statement, so it is lost wherever there is a new one.
-/
import ComponentLowering.Proofs.Lowering.ClassForms
import ComponentLowering.Proofs.Lowering.CommentPlaces

namespace ComponentLowering.Lowering

open ComponentLowering.Component ComponentLowering.Settings ComponentLowering.Syntax
open ComponentLowering.Syntax.Parser

variable {options : Options} {statement new : Stmt} {decl : ClassDef} {name : Ident}

/-! ### Forms of statements -/

/-- A class in its own place changes nothing. -/
theorem withClass_self (cls : class? statement = some decl) : withClass decl statement = statement := by
  cases statement with
  | classDecl old =>
      cases cls
      rfl
  | exportDecl span inner =>
      cases inner with
      | classDecl old =>
          cases cls
          rfl
      | _ => rfl
  | exportDefault span inner =>
      cases inner with
      | classDecl old =>
          cases cls
          rfl
      | _ => rfl
  | _ => rfl

/-- A class statement is left as it is if it is not to be a constant and has no export to drop. -/
theorem isRemade_eq_false_iff :
    isRemade options statement = false ↔
      (options.convention = .cjs ∨ isDefaultExport statement = true) ∧
        (options.componentExport = .lazy ∨
          isNamedExport statement = false ∧ isDefaultExport statement = false) := by
  unfold isRemade classShape
  cases isDefaultExport statement <;> cases isNamedExport statement <;>
    cases options.convention <;> cases options.componentExport <;> decide

/-- Whether a statement is exported under its name, and whether it is the default export, after a form is
given to it. -/
def exportsOf (statement : Stmt) : ClassShape → Bool × Bool
  | .constant exported => (exported, false)
  | .declaration => (false, false)
  | .unchanged => (isNamedExport statement, isDefaultExport statement)

/-- A class statement keeps its export under options that keep exports, and under no other ones. -/
theorem exportsOf_classShape (cls : class? statement = some decl) :
    exportsOf statement (classShape options statement) =
      (isNamedExport statement && options.componentExport == .lazy,
        isDefaultExport statement && options.componentExport == .lazy) := by
  unfold classShape
  cases statement with
  | classDecl old => cases options.convention <;> rfl
  | exportDecl span inner =>
      cases options.convention <;> cases options.componentExport <;> rfl
  | exportDefault span inner => cases options.componentExport <;> rfl
  | _ => cases cls

theorem exports_shaped {className : String} (named : isBindingName className = true)
    (shape : ClassShape) :
    (isNamedExport (shaped className named decl statement shape),
      isDefaultExport (shaped className named decl statement shape)) = exportsOf statement shape := by
  cases shape with
  | constant exported => cases exported <;> rfl
  | declaration => rfl
  | unchanged => rfl

/-! ### Classes without a name -/

/-- Whether a declaration of a class without a name and without a head was read. -/
def readsBlank : Except Failure Stmt → Bool
  | .ok (.classDecl frame) =>
    frame.name.isNone && !frame.declared && !frame.isAbstract && frame.superTypeArgs.isEmpty &&
      frame.interfaces.isEmpty
  | _ => false

theorem exists_of_readsBlank {read : Except Failure Stmt} (h : readsBlank read = true) :
    ∃ frame, read = .ok (.classDecl frame) ∧ frame.name = none ∧ ClassHead.of frame = .blank := by
  unfold readsBlank at h
  split at h
  · rename_i frame
    simp only [Bool.and_eq_true, Option.isNone_iff_eq_none, Bool.not_eq_true', List.isEmpty_iff] at h
    obtain ⟨⟨⟨⟨name, declared⟩, isAbstract⟩, arguments⟩, interfaces⟩ := h
    refine ⟨frame, rfl, name, ?_⟩
    rw [ClassHead.of, declared, isAbstract, arguments, interfaces]
    rfl
  · cases h

/-- Without a name there is a declaration that can be filled, but no constant. -/
theorem statement_nameless :
    (∃ frame, Code.statement "class  \x7b\x7d" = .ok (.classDecl frame) ∧ frame.name = none ∧
      ClassHead.of frame = .blank) ∧
    ∀ exported text, shapeText "" (.constant exported) = some text →
      ∃ failure, Code.statement text = .error failure := by
  have fails {text : String} (h : (Code.statement text).toBool = false) :
      ∃ failure, Code.statement text = .error failure := by
    cases read : Code.statement text with
    | error failure => exact ⟨failure, rfl⟩
    | ok frame =>
        rw [read] at h
        cases h
  refine ⟨exists_of_readsBlank (by decide +kernel), fun exported text eq => fails ?_⟩
  cases exported <;> cases eq <;> decide +kernel

theorem shapeClass_nameless (cls : class? statement = some decl)
    (h : shapeClass options "" statement = .ok new) :
    classShape options statement = .unchanged ∧ new = statement ∨
      classShape options statement = .declaration ∧ ∃ frame : ClassDef, frame.name = none ∧
        ClassHead.of frame = .blank ∧
        new = .classDecl { fillClass frame decl with span := statement.span } := by
  obtain ⟨⟨frame, read, nameless, blank⟩, fails⟩ := statement_nameless
  unfold shapeClass at h
  cases shape : classShape options statement with
  | unchanged =>
      simp only [shape, shapeText] at h
      exact .inl ⟨rfl, (Except.ok.inj h).symm⟩
  | constant exported =>
      obtain ⟨failure, error⟩ := fails exported _ rfl
      simp only [shape, shapeText, error] at h
      cases h
  | declaration =>
      have text : shapeText "" .declaration = some "class  \x7b\x7d" := by decide
      simp only [shape, text, read, cls] at h
      cases h
      exact .inr ⟨rfl, frame, nameless, blank, rfl⟩

/-! ### Statements that are given a form -/

/-- The name under which a class is given a form: its own one, or no letters at all. -/
def shapeName (decl : ClassDef) : String := (decl.name.map (·.name)).getD ""

/-- What a class statement is given as its form.  The class that the new statement holds has the members,
the superclass, the type parameters and the decorators of the old one.  It has the head of the old one only
if the statement is left as it is, or if there is nothing in the head. -/
structure Reshapes (options : Options) (decl : ClassDef) (statement new : Stmt) (held : ClassDef) :
    Prop where
  holds : heldClass? new = some held
  content : SameContent held decl
  head : ClassHead.of held = if isRemade options statement then .blank else .of decl
  place : new.span = statement.span
  names : statementNames new = (decl.name.map (·.name)).toList
  exports : (isNamedExport new, isDefaultExport new) =
    (isNamedExport statement && options.componentExport == .lazy,
      isDefaultExport statement && options.componentExport == .lazy)

theorem Reshapes.head_iff {held : ClassDef} (h : Reshapes options decl statement new held) :
    ClassHead.of held = .of decl ↔ isRemade options statement = false ∨ ClassHead.of decl = .blank := by
  rw [h.head]
  cases isRemade options statement <;> simp [eq_comm]

theorem reshapes_named (cls : class? statement = some decl) (named : decl.name = some name)
    (h : shapeClass options name.name statement = .ok new) :
    ∃ held, Reshapes options decl statement new held := by
  have binding : isBindingName name.name = true := by
    have all := decl.named
    rw [named] at all
    exact all
  have self : withClass decl statement = statement := withClass_self cls
  obtain rfl : new = emitted options name.name binding decl statement := shapeClass_ok binding cls h
  have names : decl.name.map (·.name) = some name.name := by rw [named]; rfl
  have holds := @heldClass?_emitted options _ _ decl _ binding cls
  have place := @span_emitted options statement _ binding _ _ cls rfl
  have declared := @statementNames_emitted options _ _ _ _ binding cls names rfl
  rw [self] at holds place declared
  rw [statementNames_of_class? cls] at declared
  exact ⟨emittedClass options name.name binding decl statement, holds, sameContent_emittedClass binding,
    headOf_emittedClass binding, place, declared,
    (exports_shaped binding _).trans (exportsOf_classShape cls)⟩

/-- Without a name a class is left where it is, or it is put into a declaration without a name. -/
theorem reshapes_nameless (cls : class? statement = some decl) (nameless : decl.name = none)
    (h : shapeClass options "" statement = .ok new) :
    ∃ held, Reshapes options decl statement new held := by
  have exports := @exportsOf_classShape options _ _ cls
  obtain ⟨same, rfl⟩ | ⟨shape, frame, none, blank, rfl⟩ := shapeClass_nameless cls h
  · rw [same] at exports
    refine ⟨decl, heldClass?_of_class? cls, ⟨rfl, rfl, rfl, rfl⟩, ?_, rfl, statementNames_of_class? cls,
      exports⟩
    rw [isRemade, same]
    rfl
  · rw [shape] at exports
    have remade : isRemade options statement = true := by rw [isRemade, shape]; rfl
    refine ⟨_, rfl, ⟨rfl, rfl, rfl, rfl⟩, ?_, rfl, ?_, exports⟩
    · rw [remade]
      exact blank
    · rw [statementNames_of_class? rfl, nameless]
      exact congrArg (fun name : Option Ident => (name.map (·.name)).toList) none

/-- A class statement that is given its form under the name of its class holds a class with the same content
at the same place, and declares the same name.  It is exported as before if exports are kept, and not at all
otherwise.  The head of the class is kept exactly if the statement is left as it is, which takes that it is
not to be a constant and has no export to drop, or if there is nothing in the head. -/
theorem shapeClass_reshapes (cls : class? statement = some decl)
    (h : shapeClass options (shapeName decl) statement = .ok new) :
    ∃ held, Reshapes options decl statement new held ∧
      (ClassHead.of held = .of decl ↔
        (options.convention = .cjs ∨ isDefaultExport statement = true) ∧
            (options.componentExport = .lazy ∨
              isNamedExport statement = false ∧ isDefaultExport statement = false) ∨
          ClassHead.of decl = .blank) := by
  have reshapes : ∃ held, Reshapes options decl statement new held := by
    cases named : decl.name with
    | none =>
        rw [shapeName, named] at h
        exact reshapes_nameless cls named h
    | some name =>
        rw [shapeName, named] at h
        exact reshapes_named cls named h
  obtain ⟨held, reshapes⟩ := reshapes
  refine ⟨held, reshapes, ?_⟩
  rw [reshapes.head_iff, isRemade_eq_false_iff]

/-! ### A class with a head -/

/-- The class `abstract class A extends B<string> implements C {}`. -/
def abstractClass : ClassDef where
  span := .detached
  decorators := []
  declared := false
  isAbstract := true
  name := some ⟨.detached, "A"⟩
  typeParams := []
  superClass := some (.ident .detached "B")
  superTypeArgs := [.keyword .detached "string"]
  interfaces := [.reference .detached ["C"] []]
  members := []

/-- The statement `export abstract class A extends B<string> implements C {}`. -/
def abstractExport : Stmt := .exportDecl .detached (.classDecl abstractClass)

/-- The options under which modules are required and classes are not exported. -/
def withoutExports : Options := { convention := .cjs, componentExport := .customElement }

theorem abstractClass_named : isBindingName "A" = true := abstractClass.named

theorem exists_shapeClass_abstractExport :
    ∃ new, shapeClass withoutExports "A" abstractExport = .ok new := by
  refine ⟨_, shapeClass_eq abstractClass_named rfl ?_⟩
  rintro (await | implements)
  · exact absurd await (by decide)
  · exact absurd implements (by decide)

/-- The class loses its head together with its export. -/
theorem abstractExport_reshapes :
    ∃ new held, shapeClass withoutExports "A" abstractExport = .ok new ∧
      Reshapes withoutExports abstractClass abstractExport new held ∧
      isNamedExport new = false ∧ ClassHead.of held = .blank := by
  obtain ⟨new, shapes⟩ := exists_shapeClass_abstractExport
  have cls : class? abstractExport = some abstractClass := rfl
  obtain ⟨held, reshapes, -⟩ := shapeClass_reshapes cls shapes
  exact ⟨new, held, shapes, reshapes, (Prod.mk.inj reshapes.exports).1, reshapes.head⟩

/-- The statement declares an abstract class with type arguments and an interface.  Its new form does not. -/
theorem abstractExport_losesHead :
    ∃ new held, shapeClass withoutExports "A" abstractExport = .ok new ∧
      class? abstractExport = some abstractClass ∧ heldClass? new = some held ∧
      held.isAbstract ≠ abstractClass.isAbstract ∧
      held.superTypeArgs ≠ abstractClass.superTypeArgs ∧
      held.interfaces ≠ abstractClass.interfaces := by
  obtain ⟨new, shapes⟩ := exists_shapeClass_abstractExport
  obtain rfl := shapeClass_ok abstractClass_named rfl shapes
  exact ⟨_, _, shapes, rfl, rfl, nofun, nofun, nofun⟩

end ComponentLowering.Lowering
