/-
# Getters for the element

A field that holds the element is replaced by a getter of its name.  A field of an instance hides a
getter that has its name, so no other field of that name should be left beside the getter.  Whether a
field goes depends on its own decorators, though: a field of the same name that is not marked as holding
something stays, and a name that is marked twice leads to two getters.

What a field or a getter does when the class is used is not looked at.
-/
import ComponentLowering.Proofs.Lowering.MemberLayout
import ComponentLowering.Proofs.Lowering.ReplacedMembers

namespace ComponentLowering.Lowering

open ComponentLowering.Component ComponentLowering.Syntax

variable {source : List Char} {decl : ClassDef} {c : Component} {s : ModuleState}
  {lowered : LoweredClass} {name : String}

/-! ### Fields and accessors of a name -/

/-- Whether a field is one of the instances and has a name. -/
def isInstanceField (name : String) (f : Field) : Bool :=
  !f.isStatic && fieldName f == some name

/-- The fields of the instances that have a name, in the order of the text. -/
def instanceFields (name : String) (members : List Member) : List Field :=
  (fields members).filter (isInstanceField name)

/-- The name that a key spells, in brackets or without. -/
def spelledName? : Key → Option String
  | .name _ name => some name
  | .string _ value | .computed (.string _ value) => some value.text
  | _ => none

/-- Whether a member is an accessor of the instances and has a name. -/
def isInstanceAccessor (name : String) : Member → Bool
  | .method m =>
    (m.kind == .getter || m.kind == .setter) && !m.isStatic && spelledName? m.key == some name
  | _ => false

/-- The accessors of the instances that have a name. -/
def instanceAccessors (name : String) (members : List Member) : List Member :=
  members.filter (isInstanceAccessor name)

@[simp]
theorem isInstanceAccessor_elementTree (name member : String) :
    isInstanceAccessor name (elementTree member) = (member == name) := by
  have spelled : spelledName? (getterKey member) = some member := by
    unfold getterKey
    split <;> rfl
  show (spelledName? (getterKey member) == some name) = _
  rw [spelled]
  rfl

@[simp]
theorem isInstanceAccessor_formTree (name : String) : isInstanceAccessor name formTree = false := rfl

/-- Each member that holds the element leads to one accessor of its name. -/
theorem length_instanceAccessors_getters (c : Component) (name : String) :
    (instanceAccessors name (getters c)).length = c.elementMembers.count name := by
  have form : instanceAccessors name (if c.formAssociated then [formTree] else []) = [] := by
    cases c.formAssociated <;> rfl
  unfold getters
  unfold instanceAccessors at form ⊢
  rw [List.filter_append, form, List.nil_append, ← List.countP_eq_length_filter, List.countP_map]
  exact List.countP_congr fun member _ => by simp

/-! ### Lowered classes -/

/-- Whether a name stands for a getter alone in a lowered class: no field of the instances has it, and
exactly one accessor of the instances among those that were added. -/
def HasGetterAlone (c : Component) (lowered : ClassDef) (name : String) : Prop :=
  instanceFields name lowered.members = [] ∧ (instanceAccessors name (getters c)).length = 1

/-- Whether the fields of a name are replaced as a whole: each field of the instances that has the name
is marked as holding something, and only one of them as holding the element. -/
def IsMarkedAlone (decl : ClassDef) (name : String) : Prop :=
  (∀ f ∈ instanceFields name decl.members, (fieldKind f).isSome = true) ∧
    (markedNames .element decl.members).count name = 1

/-- The fields of a name that are left are those that are not marked as holding something. -/
theorem instanceFields_lowered (reads : readClass source decl = .component c)
    (lowers : lowerClass decl c s = .ok lowered) (name : String) :
    instanceFields name lowered.decl.members =
      (instanceFields name decl.members).filter fun f => (fieldKind f).isNone := by
  unfold instanceFields
  rw [fields_lowered reads lowers, List.filter_filter, List.filter_filter]
  refine List.filter_congr fun f _ => ?_
  cases here : isInstanceField name f with
  | false => simp
  | true =>
      simp only [isInstanceField, Bool.and_eq_true, Bool.not_eq_true', beq_iff_eq] at here
      rw [Bool.true_and, Bool.and_true]
      cases marked : fieldKind f with
      | some kind =>
          rw [IsMarked.isReplaced ⟨here.1, here.2, marked⟩]
          rfl
      | none =>
          rw [IsBare.not_isReplaced (.inr (.inr marked))]
          rfl

/-- What is left and what is added under the name of a member that holds the element.  The added members
come behind the others, with one accessor of the name for each field that is marked as holding the
element under it; the fields of the name that are not marked are left.  So the name stands for a getter
alone if and only if all its fields are marked, and only one of them as holding the element. -/
theorem lowerClass_hasGetterAlone_iff (reads : readClass source decl = .component c)
    (lowers : lowerClass decl c s = .ok lowered) (mem : name ∈ c.elementMembers) :
    (∃ kept, lowered.decl.members = kept ++ getters c) ∧
      (instanceAccessors name (getters c)).length = (markedNames .element decl.members).count name ∧
      1 ≤ (instanceAccessors name (getters c)).length ∧
      (instanceFields name lowered.decl.members =
        (instanceFields name decl.members).filter fun f => (fieldKind f).isNone) ∧
      (HasGetterAlone c lowered.decl name ↔ IsMarkedAlone decl name) := by
  obtain ⟨kept, -, members⟩ := (lowerClass_ok lowers).members
  have accessors := length_instanceAccessors_getters c name
  have fields := instanceFields_lowered reads lowers name
  refine ⟨⟨kept, members⟩, ?_, ?_, fields, ?_⟩
  · rw [accessors, (isReadAs_of_component reads).elementMembers]
  · rw [accessors]
    exact List.one_le_count_iff.mpr mem
  · unfold HasGetterAlone IsMarkedAlone
    rw [fields, accessors, (isReadAs_of_component reads).elementMembers, List.filter_eq_nil_iff]
    simp only [Bool.not_eq_true, Option.isNone_eq_false_iff]

/-! ### A field that is declared twice -/

/-- A module with a component whose field for the element is declared once more without a
decorator. -/
def redeclared : String :=
  "@Component(\x7b tag: 'a-a' \x7d)\nclass A \x7b\n  @Element() el;\n  el;\n\x7d\n"

theorem redeclared_read :
    ∃ m, Module.read (.ofPath "a.ts") redeclared.toList = .ok m ∧
      lowersFirst (fun decl c => c.elementMembers.contains "el" &&
        (instanceFields "el" decl.members).any fun f => (fieldKind f).isNone) m = true :=
  exists_of_read (by decide +kernel)

/-- The field without a decorator is left beside the getter of its name. -/
theorem redeclared_keepsField :
    ∃ m, Module.read (.ofPath "a.ts") redeclared.toList = .ok m ∧
      ∃ decl ∈ classes m.body, ∃ c lowered, readClass m.source decl = .component c ∧
        lowerClass decl c {} = .ok lowered ∧ "el" ∈ c.elementMembers ∧
        instanceFields "el" lowered.decl.members ≠ [] ∧
        ¬ HasGetterAlone c lowered.decl "el" := by
  obtain ⟨m, read, first⟩ := redeclared_read
  obtain ⟨decl, mem, c, lowered, reads, lowers, holds⟩ := of_lowersFirst first
  simp only [Bool.and_eq_true, List.contains_eq_mem, decide_eq_true_eq, List.any_eq_true] at holds
  obtain ⟨element, f, field, bare⟩ := holds
  have left : instanceFields "el" lowered.decl.members ≠ [] := by
    rw [instanceFields_lowered reads lowers]
    exact List.ne_nil_of_mem (List.mem_filter.mpr ⟨field, bare⟩)
  exact ⟨m, read, decl, mem, c, lowered, reads, lowers, element, left, fun alone => left alone.1⟩

/-- The class is lowered, so what is left and what is added under the name is known. -/
theorem redeclared_hasGetterAlone_iff :
    ∃ m, Module.read (.ofPath "a.ts") redeclared.toList = .ok m ∧
      ∃ decl ∈ classes m.body, ∃ c lowered, readClass m.source decl = .component c ∧
        lowerClass decl c {} = .ok lowered ∧ "el" ∈ c.elementMembers ∧
        (∃ kept, lowered.decl.members = kept ++ getters c) ∧
        (instanceAccessors "el" (getters c)).length =
          (markedNames .element decl.members).count "el" ∧
        1 ≤ (instanceAccessors "el" (getters c)).length ∧
        (instanceFields "el" lowered.decl.members =
          (instanceFields "el" decl.members).filter fun f => (fieldKind f).isNone) ∧
        (HasGetterAlone c lowered.decl "el" ↔ IsMarkedAlone decl "el") := by
  obtain ⟨m, read, first⟩ := redeclared_read
  obtain ⟨decl, mem, c, lowered, reads, lowers, holds⟩ := of_lowersFirst first
  simp only [Bool.and_eq_true, List.contains_eq_mem, decide_eq_true_eq] at holds
  exact ⟨m, read, decl, mem, c, lowered, reads, lowers, holds.1,
    lowerClass_hasGetterAlone_iff reads lowers holds.1⟩

end ComponentLowering.Lowering
