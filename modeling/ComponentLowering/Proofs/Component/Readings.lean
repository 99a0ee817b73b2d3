/-
# What classes are read as

The steps in which a class is read, each taken apart once: when it succeeds, and what it then gives.  What
is read of a component comes from the members of an object literal, and its parts do not depend on each
other.
-/
import ComponentLowering.Component.Annotation
import ComponentLowering.Proofs.Component.LiteralForms

namespace ComponentLowering.Component

open ComponentLowering.Report ComponentLowering.Style ComponentLowering.Syntax
open ComponentLowering.Text

variable {source : List Char} {className tag : String} {decl : ClassDef} {c : Component}
variable {config : List (String × Expr)}

/-! ### Configurations and tags -/

/-- The call of a decorator whose first argument is an object literal with the given entries. -/
def IsConfiguredCall (e : Expr) (entries : List (String × Expr)) : Prop :=
  ∃ argument more, IsCallWith e (argument :: more) ∧ IsObjectOf argument entries

theorem IsObjectOf.isObject {e : Expr} {entries : List (String × Expr)} (h : IsObjectOf e entries) :
    Literal.isObject e = true := by
  cases h
  rfl

theorem IsCallWith.isCall {e : Expr} {args : List Expr} (h : IsCallWith e args) :
    Literal.isCall e = true := by
  cases h
  rfl

theorem configuration_eq_ok_iff {e : Expr} :
    configuration source className e = .ok config ↔
      ∃ entries, IsConfiguredCall e entries ∧ config = ofPairs entries := by
  unfold configuration
  constructor
  · intro h
    dsimp only at h
    split at h
    · cases h
    · cases h
    · rename_i argument more args
      split at h
      · split at h
        · cases h
        · rename_i read
          cases h
          obtain ⟨entries, object, rfl⟩ := object_eq_ok_iff.mp read
          exact ⟨entries, ⟨argument, more, arguments_eq_ok_iff.mp args, object⟩, rfl⟩
      · cases h
  · rintro ⟨entries, ⟨argument, more, call, object⟩, rfl⟩
    have read : Literal.object argument = .ok (ofPairs entries) :=
      object_eq_ok_iff.mpr ⟨entries, object, rfl⟩
    simp only [arguments_eq_ok_iff.mpr call, object.isObject, ↓reduceIte, read]

theorem readTag_eq_ok_iff :
    readTag source className config = .ok tag ↔
      ∃ node text, lookup "tag" config = some node ∧ IsText node text ∧ isBlankText text = false ∧
        tag = trim text := by
  unfold readTag
  constructor
  · intro h
    split at h
    · cases h
    · rename_i node found
      split at h
      · cases h
      · rename_i text read
        split at h
        · cases h
        · rename_i solid
          cases h
          exact ⟨node, text, found, string_eq_ok_iff.mp read, by simpa using solid, rfl⟩
  · rintro ⟨node, text, found, isText, solid, rfl⟩
    simp [found, string_eq_ok_iff.mpr isText, solid]

/-! ### Components -/

/-- Whether a component is what a class with a name says, given the configuration of its decorator. -/
structure IsBuiltFrom (source : List Char) (className : String) (decl : ClassDef)
    (config : List (String × Expr)) (c : Component) : Prop where
  name : c.className = className
  tag : readTag source className config = .ok c.tag
  styles : c.styles = (styleRefs source className config).value
  formAssociated : c.formAssociated = (readFormAssociated source className config).value
  members : c.members = (readMembers className decl.members).value
  warnings : c.warnings =
    (readFormAssociated source className config).warnings ++
      (styleRefs source className config).warnings ++ (readMembers className decl.members).warnings ++
        internalsWarning className c.formAssociated c.members

theorem readNamed_ok {decorator : Decorator} (h : readNamed source className decl decorator = .ok c) :
    ∃ config, configuration source className decorator.expr = .ok config ∧
      IsBuiltFrom source className decl config c := by
  unfold readNamed at h
  dsimp only at h
  split at h
  · cases h
  · obtain ⟨config, configured, h⟩ := bind_eq_ok_iff.mp h
    obtain ⟨tag, tagged, ⟨⟩⟩ := bind_eq_ok_iff.mp h
    exact ⟨config, configured, rfl, tagged, rfl, rfl, rfl, rfl⟩

/-- A configuration and a tag are all that a component takes. -/
theorem exists_readNamed {decorator : Decorator}
    (configured : configuration source className decorator.expr = .ok config)
    (tagged : readTag source className config = .ok tag) :
    ∃ c, readNamed source className decl decorator = .ok c ∧ c.tag = tag := by
  obtain ⟨_, ⟨_, _, call, _⟩, _⟩ := configuration_eq_ok_iff.mp configured
  unfold readNamed
  simp only [call.isCall, Bool.not_true, Bool.false_eq_true, ↓reduceIte, configured, tagged, bind,
    Except.bind]
  exact ⟨_, rfl, rfl⟩

/-! ### Classes -/

/-- A class without component decorators is no component. -/
theorem readClass_of_not_mem (without : ∀ d ∈ decl.decorators, isComponentDecorator d = false) :
    readClass source decl = .plain := by
  unfold readClass
  rw [List.find?_eq_none.mpr fun d mem => by simp [without d mem]]

theorem readClass_eq_plain_iff :
    readClass source decl = .plain ↔ ∀ d ∈ decl.decorators, isComponentDecorator d = false := by
  refine ⟨fun h => ?_, readClass_of_not_mem⟩
  unfold readClass at h
  split at h
  · rename_i none
    simpa using List.find?_eq_none.mp none
  · split at h
    · cases h
    · split at h <;> cases h

theorem readClass_eq_component_iff :
    readClass source decl = .component c ↔
      ∃ decorator name, decl.decorators.find? isComponentDecorator = some decorator ∧
        decl.name = some name ∧ readNamed source name.name decl decorator = .ok c := by
  unfold readClass
  constructor
  · intro h
    split at h
    · cases h
    · rename_i decorator first
      split at h
      · cases h
      · rename_i name named
        split at h
        · cases h
        · rename_i read
          cases h
          exact ⟨decorator, name, first, named, read⟩
  · rintro ⟨decorator, name, first, named, read⟩
    simp only [first, named, read]

end ComponentLowering.Component
