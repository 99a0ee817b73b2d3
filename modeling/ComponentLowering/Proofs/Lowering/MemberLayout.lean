/-
# The layout of a lowered class

What is left of a class keeps its order when the constructor that takes the host is put among it and the
getters come behind.  The constructor comes first, or stands in the place of the first constructor that
the class had and goes on with its statements.  Of the component only the members to be replaced and
whether it takes part in forms are looked at, so it may have been read from any class.
-/
import ComponentLowering.Proofs.Lowering.MovedComments

namespace ComponentLowering.Lowering

open ComponentLowering.Component ComponentLowering.Report ComponentLowering.Syntax

variable {members before after : List Member} {old : Member} {c : Component} {decl : ClassDef}

/-! ### The new constructor -/

@[simp]
theorem span_hostConstructor (span : Span) (body : List Stmt) :
    (hostConstructor span body).span = span := rfl

@[simp]
theorem bodyStatements_hostConstructor (span : Span) (body : List Stmt) :
    bodyStatements (hostConstructor span body) = body := rfl

/-- The first constructor, if there is one, parts the members. -/
theorem exists_constructor_or (members : List Member) :
    (∀ m ∈ members, isConstructor m = false) ∨
      ∃ before old after, members = before ++ old :: after ∧
        (∀ m ∈ before, isConstructor m = false) ∧ isConstructor old = true := by
  cases index : constructorIndex? members with
  | none => exact .inl (List.findIdx?_eq_none_iff.mp index)
  | some i =>
      obtain ⟨before, old, after, eq, -, without, constructs⟩ := constructorIndex?_eq_some index
      exact .inr ⟨before, old, after, eq, without, constructs⟩

theorem head?_constructors (without : ∀ m ∈ before, isConstructor m = false)
    (constructs : isConstructor old = true) :
    (constructors (before ++ old :: after)).head? = some old := by
  have none : before.filter isConstructor = [] :=
    List.filter_eq_nil_iff.mpr fun m mem => by simp [without m mem]
  rw [constructors, List.filter_append, none, List.filter_cons_of_pos constructs]
  rfl

/-- The new constructor is put in front of members without a constructor. -/
theorem installConstructor_first (without : ∀ m ∈ members, isConstructor m = false) (c : Component) :
    installConstructor members (constructorStatements c) =
      .ok ⟨0, hostConstructor .detached (injectedStatements c.internalsMembers) :: members⟩ := by
  have none : constructorIndex? members = none := List.findIdx?_eq_none_iff.mpr without
  unfold installConstructor constructorStatements
  dsimp only
  rw [classMembers_constructorText, none]
  rfl

/-- The new constructor takes the place of the first one among the members. -/
theorem installConstructor_instead (without : ∀ m ∈ before, isConstructor m = false)
    (constructs : isConstructor old = true) (c : Component) :
    installConstructor (before ++ old :: after) (constructorStatements c) =
      .ok ⟨parameterCount old, before ++
        hostConstructor old.span (injectedStatements c.internalsMembers ++ bodyStatements old) ::
          after⟩ := by
  have here : (before ++ old :: after)[before.length]? = some old := by simp
  have index := @constructorIndex?_append before after old without constructs
  unfold installConstructor constructorStatements
  dsimp only
  rw [classMembers_constructorText, index]
  simp only [here]
  change Except.ok _ = _
  rw [List.set_append_right _ _ le_rfl, Nat.sub_self, List.set_cons_zero]
  rfl

/-! ### The members while comments move -/

/-- When the comments of a field move, at most the new constructor is put elsewhere, and only from the
top of the module to where the field was. -/
theorem fieldMoves_hostConstructor (without : ∀ m ∈ before, isConstructor m = false) (span : Span)
    (body : List Stmt) (after : List Member) (offset : Nat) :
    ∃ span', (fieldMoves offset (before ++ hostConstructor span body :: after)).1 =
        before ++ hostConstructor span' body :: after ∧
      (span' = span ∨ span.start = 0 ∧ span' = .point offset) := by
  have index := @constructorIndex?_append before after (hostConstructor span body) without rfl
  have here : (before ++ hostConstructor span body :: after)[before.length]? =
      some (hostConstructor span body) := by simp
  unfold fieldMoves moveFieldComments
  split
  · exact ⟨span, rfl, .inl rfl⟩
  · simp only [index, here]
    split
    · rename_i top
      refine ⟨.point offset, ?_, .inr ⟨top, rfl⟩⟩
      rw [List.set_append_right _ _ le_rfl, Nat.sub_self, List.set_cons_zero]
      rfl
    · exact ⟨span, rfl, .inl rfl⟩

/-- The same when the comments of one field after the other move. -/
theorem allFieldMoves_places (without : ∀ m ∈ before, isConstructor m = false) (span : Span)
    (body : List Stmt) (after : List Member) (offsets : List Nat) :
    ∃ span', (allFieldMoves offsets (before ++ hostConstructor span body :: after)).1 =
        before ++ hostConstructor span' body :: after ∧
      (span' = span ∨ span.start = 0 ∧ ∃ offset ∈ offsets, span' = .point offset) := by
  induction offsets generalizing span with
  | nil => exact ⟨span, rfl, .inl rfl⟩
  | cons offset rest ih =>
      obtain ⟨between, first, place⟩ := fieldMoves_hostConstructor without span body after offset
      obtain ⟨span', later, place'⟩ := ih between
      refine ⟨span', by simp only [allFieldMoves, first, later], ?_⟩
      rcases place with rfl | ⟨top, rfl⟩
      · rcases place' with rfl | ⟨top, there, mem, eq⟩
        · exact .inl rfl
        · exact .inr ⟨top, there, List.mem_cons_of_mem _ mem, eq⟩
      · rcases place' with rfl | ⟨-, there, mem, eq⟩
        · exact .inr ⟨top, offset, List.mem_cons_self, rfl⟩
        · exact .inr ⟨top, there, List.mem_cons_of_mem _ mem, eq⟩

theorem allFieldMoves_hostConstructor (without : ∀ m ∈ before, isConstructor m = false) (span : Span)
    (body : List Stmt) (after : List Member) (offsets : List Nat) :
    ∃ span', (allFieldMoves offsets (before ++ hostConstructor span body :: after)).1 =
        before ++ hostConstructor span' body :: after ∧
      (span.start ≠ 0 → span' = span) := by
  obtain ⟨span', moved, place⟩ := allFieldMoves_places without span body after offsets
  exact ⟨span', moved, fun placed => place.resolve_right fun elsewhere => placed elsewhere.1⟩

/-! ### The layout -/

/-- The members of a class that are not replaced. -/
def left (c : Component) (decl : ClassDef) : List Member :=
  decl.members.filter fun m => !isLoweredField c m

/-- What comes behind the other members of a lowered class: the getter that makes it take part in forms,
if it does, and a getter for each member that holds the element. -/
def getters (c : Component) : List Member :=
  (if c.formAssociated then [formTree] else []) ++ c.elementMembers.map elementTree

/-- How a class is laid out when it is lowered. -/
structure HasLayout (c : Component) (decl : ClassDef) (lowered : LoweredClass) : Prop where
  /-- The constructor comes first if the class has none. -/
  first : (∀ m ∈ left c decl, isConstructor m = false) →
    ∃ span, lowered.decl.members =
      hostConstructor span (injectedStatements c.internalsMembers) :: left c decl ++ getters c
  /-- Otherwise it stands where the first constructor stood, in the text as well, and goes on with the
  statements of that one. -/
  instead : ∀ before old after, left c decl = before ++ old :: after →
    (∀ m ∈ before, isConstructor m = false) → isConstructor old = true →
    lowered.decl.members =
      before ++ hostConstructor old.span (injectedStatements c.internalsMembers ++ bodyStatements old)
        :: after ++ getters c
  /-- The decorators stay, except for those that make the class a component. -/
  decorators : lowered.decl.decorators = decl.decorators.filter fun d => !isComponentDecorator d
  /-- Nothing else of the class changes. -/
  rest : lowered.decl =
    { decl with decorators := lowered.decl.decorators, members := lowered.decl.members }
  /-- At most one warning comes with it, which is about the parameters that were dropped. -/
  warnings : lowered.warnings.length ≤ 1 ∧ ∀ d ∈ lowered.warnings,
    d.code = .constructorParametersDropped ∧ d.category = .warning ∧ d.className = some c.className
  /-- It comes exactly if the constructor that is replaced has parameters. -/
  warned : lowered.warnings ≠ [] ↔
    ∃ old, (left c decl).find? isConstructor = some old ∧ 1 ≤ parameterCount old

/-- The first constructor that is left of a class is the first one that it has. -/
theorem find?_left (c : Component) (decl : ClassDef) :
    (left c decl).find? isConstructor = (constructors decl.members).head? := by
  rw [← constructors_kept c decl.members, constructors, List.head?_filter]
  rfl

/-- One warning is raised if parameters were dropped, and none otherwise. -/
theorem droppedWarning_spec (className : String) (dropped : Nat) :
    ((droppedWarning className dropped).length ≤ 1 ∧ ∀ d ∈ droppedWarning className dropped,
      d.code = .constructorParametersDropped ∧ d.category = .warning ∧
        d.className = some className) ∧
      (droppedWarning className dropped ≠ [] ↔ 1 ≤ dropped) := by
  unfold droppedWarning
  split
  · rename_i none
    simp [none]
  · rename_i drops
    refine ⟨⟨le_rfl, fun d mem => ?_⟩, ?_⟩
    · obtain rfl := List.mem_singleton.mp mem
      exact ⟨rfl, rfl, rfl⟩
    · simp [Nat.one_le_iff_ne_zero, drops]

/-- A class whose members all have a place in the text is laid out as described, whatever component it
is lowered for. -/
theorem lowerClass_hasLayout {s : ModuleState} {lowered : LoweredClass}
    (placed : ∀ member ∈ decl.members, member.span.start ≠ 0) (lowers : lowerClass decl c s = .ok lowered) :
    HasLayout c decl lowered := by
  obtain ⟨constructed, installs, eq, -, -⟩ := lowerClass_parts lowers
  change installConstructor (left c decl) _ = _ at installs
  have members : lowered.decl.members =
      (allFieldMoves (loweredOffsets c decl.members) constructed.members).1 ++ getters c := by
    rw [eq]
    rfl
  have warnings := lowerClass_warnings lowers
  obtain ⟨single, warns⟩ := droppedWarning_spec c.className (firstParameters decl)
  refine ⟨fun without => ?first, fun before old after split without constructs => ?instead,
    by rw [eq], by rw [eq], by rwa [warnings], ?warned⟩
  case first =>
    rw [installConstructor_first without] at installs
    cases installs
    obtain ⟨span, moved, -⟩ := allFieldMoves_hostConstructor (List.forall_mem_nil _) .detached
      (injectedStatements c.internalsMembers) (left c decl) (loweredOffsets c decl.members)
    rw [List.nil_append, List.nil_append] at moved
    exact ⟨span, by rw [members, moved]⟩
  case instead =>
    have mem : old ∈ left c decl := by simp [split]
    rw [split, installConstructor_instead without constructs] at installs
    cases installs
    obtain ⟨span, moved, stays⟩ := allFieldMoves_hostConstructor without old.span
      (injectedStatements c.internalsMembers ++ bodyStatements old) after
      (loweredOffsets c decl.members)
    obtain rfl := stays (placed old (List.mem_of_mem_filter mem))
    rw [members, moved]
  case warned =>
    rw [warnings, warns, find?_left, firstParameters]
    cases (constructors decl.members).head? <;> simp

/-! ### A class with a constructor between fields that are replaced -/

/-- A module with a component whose constructor, with a parameter for all further arguments, stands
behind a method and a block, and between two fields that are replaced. -/
def interleaved : String :=
  "@Other @Component(\x7b tag: 'a-a', formAssociated: true \x7d)\nclass A \x7b\n  @Element() el;\n" ++
    "  m() \x7b\x7d\n  static \x7b\x7d\n  constructor(a, ...b) \x7b this.v = a; \x7d\n" ++
    "  @AttachInternals() internals;\n  w = 1;\n\x7d\n"

theorem interleaved_read :
    ∃ m, Module.read (.ofPath "a.ts") interleaved.toList = .ok m ∧
      lowersFirst (fun decl c => decl.members.all (·.span.start != 0) &&
        (left c decl).findIdx? isConstructor == some 2 && firstParameters decl == 2) m = true :=
  exists_of_read (by decide +kernel)

/-- All members of the class have their places, so it is laid out as described. -/
theorem interleaved_hasLayout :
    ∃ m, Module.read (.ofPath "a.ts") interleaved.toList = .ok m ∧
      ∃ decl ∈ classes m.body, ∃ c lowered, readClass m.source decl = .component c ∧
        lowerClass decl c {} = .ok lowered ∧ (∀ member ∈ decl.members, member.span.start ≠ 0) ∧
        HasLayout c decl lowered := by
  obtain ⟨m, read, first⟩ := interleaved_read
  obtain ⟨decl, mem, c, lowered, reads, lowers, holds⟩ := of_lowersFirst first
  have placed : ∀ member ∈ decl.members, member.span.start ≠ 0 := by
    simp only [Bool.and_eq_true, List.all_eq_true, bne_iff_ne] at holds
    exact holds.1.1
  exact ⟨m, read, decl, mem, c, lowered, reads, lowers, placed,
    lowerClass_hasLayout placed lowers⟩

end ComponentLowering.Lowering
