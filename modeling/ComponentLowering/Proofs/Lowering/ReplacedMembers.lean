/-
# Replaced members

The fields that lowering takes out of a class are found by their names among the members that were
recorded when the class was read.  Names may be repeated, and a recorded name may be that of a field
that is to stay; even so exactly the fields go that were recorded as to be replaced, and each of them
is replaced once.
-/
import ComponentLowering.Proofs.Lowering.LoweredClasses

namespace ComponentLowering.Lowering

open ComponentLowering.Component ComponentLowering.Report ComponentLowering.Syntax

variable {source : List Char} {decl : ClassDef} {c : Component} {f : Field}

/-- A field goes exactly if it is recorded as to be replaced, although it is looked up by name. -/
theorem isLoweredField_eq (reads : IsReadAs c decl) (mem : f ∈ fields decl.members) :
    isLoweredField c (.field f) = isReplaced c.className f := by
  obtain ⟨name, kind, marked⟩ | bare := isMarked_or_isBare f
  · have recorded : { name, kind } ∈ c.members := by
      rw [reads.members, readMembers_eq]
      exact List.mem_flatMap.mpr ⟨f, mem, by simp [marked.fieldRecord]⟩
    have found : (c.members.any fun m => m.isLowered && m.name == name) = true :=
      List.any_eq_true.mpr ⟨_, recorded, by simp [marked.isLowered]⟩
    rw [marked.isReplaced]
    simp [isLoweredField, marked.onInstance, marked.named, marked.marked, found]
  · rw [bare.not_isReplaced]
    obtain static | unnamed | unmarked := bare
    · simp [isLoweredField, static]
    · simp [isLoweredField, unnamed]
    · simp [isLoweredField, unmarked]

/-- Whether a member stays: it is no field that is recorded as to be replaced. -/
def stays (className : String) (m : Member) : Bool :=
  match field? m with
  | some f => !isReplaced className f
  | none => true

theorem filter_stays (reads : IsReadAs c decl) :
    (decl.members.filter fun m => !isLoweredField c m) = decl.members.filter (stays c.className) := by
  refine List.filter_congr fun m mem => ?_
  cases m with
  | field f => rw [isLoweredField_eq reads (mem_fields.mpr mem)]; rfl
  | _ => rfl

/-- How a field that goes and the member that it is recorded as belong together. -/
structure IsRecordOf (f : Field) (m : AnnotatedMember) : Prop where
  onInstance : f.isStatic = false
  name : fieldName f = some m.name
  kind : fieldKind f = some m.kind

/-- How the record of a class, its fields and what it is lowered to belong together. -/
structure Agrees (source : List Char) (c : Component) (decl lowered : ClassDef) : Prop where
  /-- Each field is recorded by itself, in the order of the text. -/
  recorded : c.members = (fields decl.members).flatMap fun f => (fieldRecord c.className f).value
  /-- The fields that are not recorded as to be replaced are left, in their order. -/
  left : fields lowered.members =
    (fields decl.members).filter fun f => !isReplaced c.className f
  /-- The fields that go are those behind the recorded members to be replaced, one by one. -/
  gone : List.Forall₂ IsRecordOf ((fields decl.members).filter (isReplaced c.className))
    (c.members.filter (·.isLowered))
  /-- The members that stay keep their order, with the constructor among them, which gives their
  internals to the members recorded for them; and a getter for each member recorded as the element
  comes behind. -/
  members : ∃ installed,
    Installs (registerTree :: c.internalsMembers.map internalsTree)
      (decl.members.filter (stays c.className)) installed ∧
    lowered.members = installed ++ ((if c.formAssociated then [formTree] else []) ++
      c.elementMembers.map elementTree)
  /-- Both are recorded in the order in which the fields are declared. -/
  order : c.internalsMembers = markedNames .internals decl.members ∧
    c.elementMembers = markedNames .element decl.members
  /-- A field that is recorded as left alone, or warned about for its name, is left. -/
  untouched : ∀ f ∈ fields decl.members,
    ((∃ m ∈ (fieldRecord c.className f).value, m.isLowered = false) ∨
      ∃ d ∈ (fieldRecord c.className f).warnings, d.code = .memberNameNotStatic) →
    f ∈ fields lowered.members
  /-- No field that is left is marked as holding something and could have been replaced. -/
  unmarked : ∀ f ∈ fields lowered.members, f.isStatic = false → (fieldName f).isSome = true →
    fieldKind f = none
  /-- The lowered class is no component. -/
  plain : readClass source lowered = .plain

/-- The recorded members to be replaced, one for each field that goes. -/
theorem forall₂_isRecordOf (className : String) (fs : List Field) :
    List.Forall₂ IsRecordOf (fs.filter (isReplaced className))
      ((fs.flatMap fun f => (fieldRecord className f).value).filter (·.isLowered)) := by
  induction fs with
  | nil => exact .nil
  | cons f rest ih =>
      rw [List.flatMap_cons, List.filter_append]
      obtain ⟨name, kind, marked⟩ | bare := isMarked_or_isBare f
      · have here : (fieldRecord className f).value.filter (·.isLowered) = [{ name, kind }] := by
          simp [marked.fieldRecord, marked.isLowered]
        rw [List.filter_cons_of_pos (marked.isReplaced className), here]
        exact .cons ⟨marked.onInstance, marked.named, marked.marked⟩ ih
      · have replaced := bare.not_isReplaced className
        have here : (fieldRecord className f).value.filter (·.isLowered) = [] := by
          unfold isReplaced at replaced
          simpa [List.filter_eq_nil_iff] using replaced
        rw [List.filter_cons_of_neg (by simp [replaced]), here]
        exact ih

/-- The fields of a lowered class are those that are not replaced. -/
theorem fields_lowered {s : ModuleState} {lowered : LoweredClass}
    (reads : readClass source decl = .component c) (lowers : lowerClass decl c s = .ok lowered) :
    fields lowered.decl.members =
      (fields decl.members).filter fun f => !isReplaced c.className f := by
  rw [(lowerClass_ok lowers).fields]
  exact List.filter_congr fun f mem => by rw [isLoweredField_eq (isReadAs_of_component reads) mem]

/-- What is recorded of a class when it is read agrees with what is replaced when it is lowered. -/
theorem lowerClass_agrees {s : ModuleState} {lowered : LoweredClass}
    (reads : readClass source decl = .component c) (lowers : lowerClass decl c s = .ok lowered) :
    Agrees source c decl lowered.decl := by
  have is := isReadAs_of_component reads
  have result := lowerClass_ok lowers
  have left := fields_lowered reads lowers
  have recorded : c.members =
      (fields decl.members).flatMap fun f => (fieldRecord c.className f).value := by
    rw [is.members, readMembers_eq]
  refine ⟨recorded, left, ?_, ?_, ⟨is.internalsMembers, is.elementMembers⟩, ?_, ?_, ?_⟩
  · rw [recorded]
    exact forall₂_isRecordOf c.className (fields decl.members)
  · obtain ⟨installed, installs, members⟩ := result.members
    rw [filter_stays is] at installs
    exact ⟨installed, installs, members⟩
  · intro f mem alone
    rw [left, List.mem_filter]
    obtain ⟨name, kind, marked⟩ | bare := isMarked_or_isBare f
    · rw [marked.fieldRecord] at alone
      obtain ⟨m, here, kept⟩ | ⟨d, here, -⟩ := alone
      · rw [List.mem_singleton.mp here, marked.isLowered] at kept
        cases kept
      · cases here
    · exact ⟨mem, by rw [bare.not_isReplaced]; rfl⟩
  · intro f mem onInstance named
    rw [left, List.mem_filter] at mem
    obtain ⟨name, kind, marked⟩ | static | unnamed | unmarked := isMarked_or_isBare f
    · rw [marked.isReplaced] at mem
      cases mem.2
    · rw [onInstance] at static
      cases static
    · rw [unnamed] at named
      cases named
    · exact unmarked
  · refine readClass_of_not_mem fun d mem => ?_
    rw [result.decorators] at mem
    simpa using (List.mem_filter.mp mem).2

/-! ### A class with fields of all kinds -/

/-- A module with a component whose fields repeat names: one that is replaced, a static one that is
only warned about, one that is left alone, and one that is given the internals. -/
def annotated : String :=
  "@Component(\x7b tag: 'a-a', formAssociated: true \x7d)\nclass A \x7b\n  @Element() el;\n" ++
    "  @Element() static el;\n  @Prop() el;\n  @AttachInternals() internals;\n\x7d\n"

theorem annotated_read :
    ∃ m, Module.read (.ofPath "a.ts") annotated.toList = .ok m ∧
      lowersFirst (fun _ c => c.members.length == 4) m = true :=
  exists_of_read (by decide +kernel)

/-- The class is read with four members and lowered, so its fields, its record and what it is lowered to
belong together. -/
theorem annotated_agrees :
    ∃ m, Module.read (.ofPath "a.ts") annotated.toList = .ok m ∧
      ∃ decl ∈ classes m.body, ∃ c lowered, readClass m.source decl = .component c ∧
        c.members.length = 4 ∧ lowerClass decl c {} = .ok lowered ∧
        Agrees m.source c decl lowered.decl := by
  obtain ⟨m, read, first⟩ := annotated_read
  obtain ⟨decl, mem, c, lowered, reads, lowers, four⟩ := of_lowersFirst first
  exact ⟨m, read, decl, mem, c, lowered, reads, beq_iff_eq.mp four, lowers,
    lowerClass_agrees reads lowers⟩

end ComponentLowering.Lowering
