/-
# Recorded members

The members of a component are recorded field by field: a field leads to at most one of them, under its
own name.  Whether a recorded member is to be replaced depends on its field alone, so the fields behind
the replaced members can be told without looking at the record.
-/
import ComponentLowering.Proofs.Component.Readings
import Mathlib.Data.List.Basic

namespace ComponentLowering.Component

open ComponentLowering.Report ComponentLowering.Syntax

variable {source : List Char} {decl : ClassDef} {c : Component} {className : String} {f : Field}

/-! ### Components -/

/-- What a class that is a component is read as. -/
structure IsReadAs (c : Component) (decl : ClassDef) : Prop where
  name : decl.name.map (·.name) = some c.className
  members : c.members = (readMembers c.className decl.members).value
  warnings : (readMembers c.className decl.members).warnings ⊆ c.warnings

theorem isReadAs_of_readNamed {decorator : Decorator}
    (h : readNamed source className decl decorator = .ok c) :
    c.className = className ∧ c.members = (readMembers className decl.members).value ∧
      (readMembers className decl.members).warnings ⊆ c.warnings := by
  obtain ⟨config, -, built⟩ := readNamed_ok h
  refine ⟨built.name, built.members, fun d mem => ?_⟩
  rw [built.warnings]
  exact List.mem_append_left _ (List.mem_append_right _ mem)

theorem isReadAs_of_component (h : readClass source decl = .component c) : IsReadAs c decl := by
  obtain ⟨decorator, name, -, named, read⟩ := readClass_eq_component_iff.mp h
  obtain ⟨className, members, warnings⟩ := isReadAs_of_readNamed read
  rw [← className] at members warnings
  exact ⟨by rw [named, className]; rfl, members, warnings⟩

/-! ### Fields -/

/-- A field, if a member is one. -/
def field? : Member → Option Field
  | .field f => some f
  | _ => none

/-- The fields among some members. -/
def fields (members : List Member) : List Field := members.filterMap field?

@[simp]
theorem mem_fields {members : List Member} : f ∈ fields members ↔ .field f ∈ members := by
  unfold fields
  rw [List.mem_filterMap]
  constructor
  · rintro ⟨m, mem, eq⟩
    cases m <;> cases eq
    exact mem
  · exact fun mem => ⟨_, mem, rfl⟩

theorem fields_append (members more : List Member) :
    fields (members ++ more) = fields members ++ fields more := List.filterMap_append

/-- A choice among members is a choice among their fields. -/
theorem fields_filter (p : Member → Bool) (members : List Member) :
    fields (members.filter p) = (fields members).filter fun f => p (.field f) := by
  unfold fields
  rw [List.filterMap_filter, List.filter_filterMap]
  refine congrArg (List.filterMap · members) (funext fun m => ?_)
  cases m with
  | field f => cases holds : p (.field f) <;> simp [field?, holds, Option.filter]
  | _ => simp [field?]

/-! ### Records -/

/-- What a field is recorded as: nothing if it has no decorators. -/
def fieldRecord (className : String) (f : Field) : Warned (List AnnotatedMember) :=
  if f.decorators.isEmpty then ⟨[], []⟩ else readField className f

/-- Members are recorded field by field, in the order of the text. -/
theorem readMembers_eq (className : String) (members : List Member) :
    readMembers className members =
      ⟨(fields members).flatMap fun f => (fieldRecord className f).value,
        (fields members).flatMap fun f => (fieldRecord className f).warnings⟩ := by
  induction members with
  | nil => rfl
  | cons m rest ih =>
      cases m with
      | field f =>
          unfold readMembers fields
          rw [List.filterMap_cons_some (show field? (.field f) = some f from rfl)]
          dsimp only
          rw [ih, List.flatMap_cons, List.flatMap_cons, fieldRecord]
          split <;> rfl
      | _ =>
          unfold readMembers fields
          rw [List.filterMap_cons_none rfl]
          exact ih

/-- A field that is marked as holding something: an instance field with a plain name, and with a
decorator that has a meaning. -/
structure IsMarked (f : Field) (name : String) (kind : MemberKind) : Prop where
  onInstance : f.isStatic = false
  named : fieldName f = some name
  marked : fieldKind f = some kind

/-- A field that is not marked: it lacks one of what it takes. -/
def IsBare (f : Field) : Prop := f.isStatic = true ∨ fieldName f = none ∨ fieldKind f = none

theorem isMarked_or_isBare (f : Field) : (∃ name kind, IsMarked f name kind) ∨ IsBare f := by
  cases static : f.isStatic with
  | true => exact .inr (.inl static)
  | false =>
      cases named : fieldName f with
      | none => exact .inr (.inr (.inl named))
      | some name =>
          cases marked : fieldKind f with
          | none => exact .inr (.inr (.inr marked))
          | some kind => exact .inl ⟨name, kind, static, named, marked⟩

theorem IsMarked.not_isBare {name : String} {kind : MemberKind} (h : IsMarked f name kind) :
    ¬ IsBare f := by
  rintro (static | unnamed | unmarked)
  · exact absurd (h.onInstance.symm.trans static) Bool.false_ne_true
  · exact nomatch h.named.symm.trans unnamed
  · exact nomatch h.marked.symm.trans unmarked

/-- The decorators with a meaning mark members that are to be replaced. -/
theorem IsMarked.isLowered {name : String} {kind : MemberKind} (h : IsMarked f name kind) :
    AnnotatedMember.isLowered { name, kind } = true := by
  obtain ⟨decorator, -, meaning⟩ := List.exists_of_findSome?_eq_some h.marked
  unfold kindOfDecorator at meaning
  split at meaning
  · cases meaning
    rfl
  · split at meaning
    · cases meaning
      rfl
    · cases meaning

/-- A marked field is recorded as one member to be replaced, without a warning. -/
theorem IsMarked.fieldRecord {name : String} {kind : MemberKind} (h : IsMarked f name kind)
    (className : String) : fieldRecord className f = ⟨[{ name, kind }], []⟩ := by
  have decorated : f.decorators.isEmpty = false := by
    cases none : f.decorators with
    | nil =>
        have marked := h.marked
        rw [fieldKind, none] at marked
        cases marked
    | cons d rest => rfl
  simp [Component.fieldRecord, readField, decorated, h.marked, h.named, h.onInstance]

/-- Any other field is recorded at most as a member that is left alone. -/
theorem IsBare.fieldRecord (h : IsBare f) (className : String) :
    (fieldRecord className f).value = [] ∨ ∃ name, fieldName f = some name ∧
      (fieldRecord className f).value = [{ name, kind := .other (firstDecorator f) }] := by
  unfold Component.fieldRecord readField
  split
  · exact .inl rfl
  · cases named : fieldName f with
    | none => cases fieldKind f <;> exact .inl rfl
    | some name =>
        refine .inr ⟨name, rfl, ?_⟩
        obtain static | unnamed | unmarked := h
        · cases fieldKind f <;> simp [static]
        · rw [named] at unnamed
          cases unnamed
        · simp [unmarked]

/-- Whether a field is recorded as a member that is to be replaced. -/
def isReplaced (className : String) (f : Field) : Bool :=
  (fieldRecord className f).value.any (·.isLowered)

theorem IsMarked.isReplaced {name : String} {kind : MemberKind} (h : IsMarked f name kind)
    (className : String) : isReplaced className f = true := by
  simp [Component.isReplaced, h.fieldRecord, h.isLowered]

theorem IsBare.not_isReplaced (h : IsBare f) (className : String) :
    isReplaced className f = false := by
  unfold isReplaced
  obtain none | ⟨name, -, record⟩ := h.fieldRecord className
  · rw [none]
    rfl
  · rw [record]
    rfl

/-! ### Marked fields -/

/-- The name of a field that is marked as holding something. -/
def markedName? (kind : MemberKind) (f : Field) : Option String :=
  if f.isStatic = false ∧ fieldKind f = some kind then fieldName f else none

/-- The names of the marked fields among some members, in the order of the text. -/
def markedNames (kind : MemberKind) (members : List Member) : List String :=
  (fields members).filterMap (markedName? kind)

theorem IsBare.markedName? (h : IsBare f) (kind : MemberKind) : markedName? kind f = none := by
  rw [Option.eq_none_iff_forall_ne_some]
  intro name eq
  unfold Component.markedName? at eq
  split at eq
  · rename_i marked
    exact IsMarked.not_isBare ⟨marked.1, eq, marked.2⟩ h
  · cases eq

theorem recordedNames_eq {kind : MemberKind} (meaning : ∀ decorator, kind ≠ .other decorator) :
    ((fieldRecord className f).value.filter (·.kind == kind)).map (·.name) =
      (markedName? kind f).toList := by
  obtain ⟨name, kind', marked⟩ | bare := isMarked_or_isBare f
  · rw [marked.fieldRecord]
    by_cases same : kind' = kind <;>
      simp [markedName?, marked.onInstance, marked.marked, marked.named, same]
  · rw [bare.markedName?]
    obtain none | ⟨name, -, record⟩ := bare.fieldRecord className
    · rw [none]
      rfl
    · rw [record]
      simp [(meaning _).symm]

/-- The recorded members of a kind are the marked fields of that kind. -/
theorem markedNames_eq {kind : MemberKind} (meaning : ∀ decorator, kind ≠ .other decorator)
    (className : String) (members : List Member) :
    ((readMembers className members).value.filter (·.kind == kind)).map (·.name) =
      markedNames kind members := by
  rw [readMembers_eq, markedNames, List.filter_flatMap, List.map_flatMap,
    List.filterMap_eq_flatMap_toList]
  exact congrArg (List.flatMap · _) (funext fun f => recordedNames_eq meaning)

/-- The members that get internals are the fields that are marked for them. -/
theorem IsReadAs.internalsMembers (h : IsReadAs c decl) :
    c.internalsMembers = markedNames .internals decl.members := by
  rw [Component.internalsMembers, h.members, markedNames_eq (by simp)]

/-- The members that hold the element are the fields that are marked for it. -/
theorem IsReadAs.elementMembers (h : IsReadAs c decl) :
    c.elementMembers = markedNames .element decl.members := by
  rw [Component.elementMembers, h.members, markedNames_eq (by simp)]

end ComponentLowering.Component
