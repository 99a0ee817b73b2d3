/-
# Lowered classes

The members of a lowered class are those that are left of the class, with the constructor that takes
the host among them and the getters behind them.  The text of what is written into the class is always
read as it is meant, so lowering fails only for a getter that cannot have its name.
-/
import ComponentLowering.Proofs.Lowering.Emission
import ComponentLowering.Proofs.Lowering.InjectedCode

namespace ComponentLowering.Lowering

open ComponentLowering.Code ComponentLowering.Component ComponentLowering.Report
open ComponentLowering.Syntax ComponentLowering.Syntax.Parser

variable {members before after : List Member} {injected : List Stmt}

/-! ### Putting the constructor into a class -/

/-- The constructor of a lowered class at a place: it takes the host. -/
def hostConstructor (span : Span) (body : List Stmt) : Member :=
  Member.at span (madeConstructor [hostName] body)

theorem isConstructor_hostConstructor (span : Span) (body : List Stmt) :
    isConstructor (hostConstructor span body) = true := rfl

/-- What members become when a constructor that begins with the given statements is put among them.
It comes first, or it replaces the first constructor and goes on with the statements of that one. -/
inductive Installs (injected : List Stmt) : List Member → List Member → Prop
  | first {members : List Member} (span : Span) (without : ∀ m ∈ members, isConstructor m = false) :
      Installs injected members (hostConstructor span injected :: members)
  | instead {before after : List Member} {old : Member} (span : Span)
      (without : ∀ m ∈ before, isConstructor m = false) (constructs : isConstructor old = true) :
      Installs injected (before ++ old :: after)
        (before ++ hostConstructor span (injected ++ bodyStatements old) :: after)

/-- The first constructor parts the members into those in front of it and those behind. -/
theorem constructorIndex?_eq_some {i : Nat} (h : constructorIndex? members = some i) :
    ∃ before old after, members = before ++ old :: after ∧ before.length = i ∧
      (∀ m ∈ before, isConstructor m = false) ∧ isConstructor old = true := by
  obtain ⟨short, constructs, earlier⟩ := List.findIdx?_eq_some_iff_getElem.mp h
  refine ⟨members.take i, members[i], members.drop (i + 1), ?_, ?_, ?_, constructs⟩
  · rw [List.getElem_cons_drop, List.take_append_drop]
  · exact List.length_take_of_le short.le
  · intro m mem
    obtain ⟨j, hj, rfl⟩ := List.getElem_of_mem mem
    rw [List.length_take] at hj
    rw [List.getElem_take]
    exact Bool.eq_false_iff.mpr (earlier j (by omega))

theorem constructorIndex?_append {old : Member} (without : ∀ m ∈ before, isConstructor m = false)
    (constructs : isConstructor old = true) :
    constructorIndex? (before ++ old :: after) = some before.length := by
  unfold constructorIndex?
  rw [List.findIdx?_append, List.findIdx?_eq_none_iff.mpr without]
  simp [List.findIdx?_cons, constructs]

/-- The text of the constructor is read, and the constructor is put among the members. -/
theorem installConstructor_eq (members : List Member) (c : Component) :
    ∃ constructed, installConstructor members (constructorStatements c) = .ok constructed ∧
      Installs (injectedStatements c.internalsMembers) members constructed.members := by
  unfold installConstructor constructorStatements
  dsimp only
  rw [classMembers_constructorText]
  cases index : constructorIndex? members with
  | none =>
      have without : ∀ m ∈ members, isConstructor m = false := List.findIdx?_eq_none_iff.mp index
      exact ⟨_, rfl, .first .detached without⟩
  | some i =>
      obtain ⟨before, old, after, rfl, rfl, without, constructs⟩ := constructorIndex?_eq_some index
      have here : (before ++ old :: after)[before.length]? = some old := by simp
      refine ⟨_, by simp only [here]; rfl, ?_⟩
      rw [List.set_append_right _ _ le_rfl, Nat.sub_self, List.set_cons_zero]
      exact .instead old.span without constructs

/-- Moving the comments of a field away moves at most the new constructor. -/
theorem Installs.moveFieldComments {new : List Member} (h : Installs injected members new)
    (offset : Nat) (s : ModuleState) :
    Installs injected members (moveFieldComments offset new s).1 := by
  have split : ∃ before span body after, new = before ++ hostConstructor span body :: after ∧
      (∀ m ∈ before, isConstructor m = false) ∧
      ∀ span, Installs injected members (before ++ hostConstructor span body :: after) := by
    cases h with
    | first span without =>
        exact ⟨[], span, injected, members, rfl, by simp, fun span => .first span without⟩
    | @instead before after old span without constructs =>
        exact ⟨before, span, _, after, rfl, without, fun span => .instead span without constructs⟩
  obtain ⟨before, span, body, after, rfl, without, anywhere⟩ := split
  have index := @constructorIndex?_append before after (hostConstructor span body) without rfl
  have here : (before ++ hostConstructor span body :: after)[before.length]? =
      some (hostConstructor span body) := by simp
  unfold Lowering.moveFieldComments
  split
  · exact h
  · simp only [index, here]
    split
    · rw [List.set_append_right _ _ le_rfl, Nat.sub_self, List.set_cons_zero]
      exact anywhere (.point offset)
    · exact h

theorem Installs.moveAllComments {new : List Member} (h : Installs injected members new)
    (offsets : List Nat) (s : ModuleState) :
    Installs injected members (moveAllComments offsets new s).1 := by
  induction offsets generalizing new s with
  | nil => exact h
  | cons offset rest ih => exact ih (h.moveFieldComments offset s) _

/-! ### Lowering a class -/

/-- What a class is lowered to. -/
structure IsLoweredTo (c : Component) (decl lowered : ClassDef) : Prop where
  /-- The constructor is put among the members that are left, and the getters come behind. -/
  members : ∃ installed,
    Installs (injectedStatements c.internalsMembers)
      (decl.members.filter fun m => !isLoweredField c m) installed ∧
    lowered.members = installed ++ appendedTrees c.formAssociated c.elementMembers
  /-- The other decorators stay, and so does the rest of the class. -/
  rest : lowered = { decl with
    decorators := decl.decorators.filter fun d => !isComponentDecorator d
    members := lowered.members }

/-- A lowered class keeps its decorators, except for those that make it a component. -/
theorem IsLoweredTo.decorators {c : Component} {decl lowered : ClassDef}
    (h : IsLoweredTo c decl lowered) :
    lowered.decorators = decl.decorators.filter fun d => !isComponentDecorator d := by
  rw [h.rest]

theorem IsLoweredTo.span {c : Component} {decl lowered : ClassDef} (h : IsLoweredTo c decl lowered) :
    lowered.span = decl.span := by
  rw [h.rest]

/-- The text of the members behind the others. -/
theorem appendedMembers_text (c : Component) :
    "\n".intercalate (appendedMembers c) = appendedText c.formAssociated c.elementMembers := rfl

theorem appendedTrees_eq_nil {c : Component} (none : (appendedMembers c).isEmpty = true) :
    appendedTrees c.formAssociated c.elementMembers = [] := by
  unfold appendedMembers at none
  unfold appendedTrees
  cases forms : c.formAssociated <;> simp_all

/-- What a class is lowered to, unless one of the members that hold the element is named like the
constructor: no getter can have that name. -/
theorem lowerClass_eq (decl : ClassDef) (c : Component) (s : ModuleState) :
    ("constructor" ∉ c.elementMembers →
      ∃ lowered, lowerClass decl c s = .ok lowered ∧ IsLoweredTo c decl lowered.decl) ∧
    ("constructor" ∈ c.elementMembers → ∃ failure, lowerClass decl c s = .error failure) := by
  obtain ⟨constructed, installs, installed⟩ :=
    installConstructor_eq (decl.members.filter fun m => !isLoweredField c m) c
  obtain ⟨read, refused⟩ := classMembers_appendedText c.formAssociated c.elementMembers
  have moved := installed.moveAllComments (loweredOffsets c decl.members)
    (s.useCore .registerInstance)
  unfold lowerClass
  dsimp only
  rw [installs]
  constructor
  · intro others
    cases none : (appendedMembers c).isEmpty with
    | true =>
        refine ⟨_, rfl, ⟨_, moved, ?_⟩, rfl⟩
        rw [appendedTrees_eq_nil none]
    | false =>
        simp only [Bool.false_eq_true, ↓reduceIte, appendedMembers_text, read others]
        exact ⟨_, rfl, ⟨_, moved, rfl⟩, rfl⟩
  · intro mem
    obtain ⟨failure, error⟩ := refused mem
    have nonempty : (appendedMembers c).isEmpty = false := by
      have : c.elementMembers ≠ [] := List.ne_nil_of_mem mem
      simp [appendedMembers, this]
    simp only [nonempty, Bool.false_eq_true, ↓reduceIte, appendedMembers_text, error]
    exact ⟨failure, rfl⟩

/-- Where a class was lowered, no member that holds the element is named like the constructor. -/
theorem not_mem_elementMembers {decl : ClassDef} {c : Component} {s : ModuleState}
    {lowered : LoweredClass} (h : lowerClass decl c s = .ok lowered) :
    "constructor" ∉ c.elementMembers := by
  intro mem
  obtain ⟨failure, error⟩ := (lowerClass_eq decl c s).2 mem
  rw [h] at error
  cases error

theorem lowerClass_ok {decl : ClassDef} {c : Component} {s : ModuleState} {lowered : LoweredClass}
    (h : lowerClass decl c s = .ok lowered) : IsLoweredTo c decl lowered.decl := by
  obtain ⟨lowered', ok, is⟩ := (lowerClass_eq decl c s).1 (not_mem_elementMembers h)
  rw [h] at ok
  cases ok
  exact is

/-- Whether the first class of a module is a component with a property, and can be lowered. -/
def lowersFirst (p : ClassDef → Component → Bool) (m : Module) : Bool :=
  match classes m.body with
  | decl :: _ =>
    match readClass m.source decl with
    | .component c => p decl c && !c.elementMembers.contains "constructor"
    | _ => false
  | [] => false

theorem of_lowersFirst {p : ClassDef → Component → Bool} {m : Module} (h : lowersFirst p m = true) :
    ∃ decl ∈ classes m.body, ∃ c lowered, readClass m.source decl = .component c ∧
      lowerClass decl c {} = .ok lowered ∧ p decl c = true := by
  unfold lowersFirst at h
  split at h
  · rename_i decl rest eq
    split at h
    · rename_i c read
      obtain ⟨holds, others⟩ := Bool.and_eq_true_iff.mp h
      obtain ⟨lowered, ok, -⟩ := (lowerClass_eq decl c {}).1 (by simpa using others)
      exact ⟨decl, by simp [eq], c, lowered, read, ok, holds⟩
    · cases h
  · cases h

/-! ### What is left of a class -/

/-- The constructors among some members, signatures included. -/
def constructors (members : List Member) : List Member := members.filter isConstructor

/-- The member of a class that is written behind the others is a getter. -/
theorem mem_appendedTrees {forms : Bool} {elements : List String} {m : Member}
    (h : m ∈ appendedTrees forms elements) : isConstructor m = false ∧ field? m = none := by
  rcases List.mem_append.mp h with form | element
  · cases forms with
    | false => cases form
    | true =>
        obtain rfl := List.mem_singleton.mp form
        exact ⟨rfl, rfl⟩
  · obtain ⟨member, -, rfl⟩ := List.mem_map.mp element
    exact ⟨rfl, rfl⟩

/-- The constructors once one has been put among the members: the first one is replaced, and the others
stay. -/
theorem Installs.constructors {new : List Member} (h : Installs injected members new) :
    ∃ span, constructors new =
      hostConstructor span
        (injected ++ ((constructors members).head?.map bodyStatements).getD []) ::
          (constructors members).tail := by
  cases h with
  | first span without =>
      have none : Lowering.constructors members = [] :=
        List.filter_eq_nil_iff.mpr fun m mem => by simp [without m mem]
      refine ⟨span, ?_⟩
      unfold Lowering.constructors at none ⊢
      rw [List.filter_cons_of_pos (isConstructor_hostConstructor ..), none]
      simp
  | @instead before after old span without constructs =>
      have none : before.filter isConstructor = [] :=
        List.filter_eq_nil_iff.mpr fun m mem => by simp [without m mem]
      refine ⟨span, ?_⟩
      unfold Lowering.constructors
      rw [List.filter_append, List.filter_append, none, List.filter_cons_of_pos constructs,
        List.filter_cons_of_pos (isConstructor_hostConstructor ..)]
      rfl

/-- The fields stay as they are. -/
theorem Installs.fields {new : List Member} (h : Installs injected members new) :
    fields new = fields members := by
  have none {m : Member} (constructs : isConstructor m = true) : field? m = none := by
    cases m <;> first | rfl | cases constructs
  cases h with
  | first span without => rfl
  | @instead before after old span without constructs =>
      unfold Component.fields
      rw [List.filterMap_append, List.filterMap_append, List.filterMap_cons_none rfl,
        List.filterMap_cons_none (none constructs)]

/-- No constructor is among the members that are replaced. -/
theorem constructors_kept (c : Component) (members : List Member) :
    constructors (members.filter fun m => !isLoweredField c m) = constructors members := by
  unfold constructors
  rw [List.filter_filter]
  refine List.filter_congr fun m _ => ?_
  cases m <;> simp [isConstructor, isLoweredField]

/-- The constructors of a lowered class. -/
theorem IsLoweredTo.constructors {c : Component} {decl lowered : ClassDef}
    (h : IsLoweredTo c decl lowered) :
    ∃ span, constructors lowered.members =
      hostConstructor span (injectedStatements c.internalsMembers ++
        ((constructors decl.members).head?.map bodyStatements).getD []) ::
          (constructors decl.members).tail := by
  obtain ⟨installed, installs, members⟩ := h.members
  have appended : (appendedTrees c.formAssociated c.elementMembers).filter isConstructor = [] :=
    List.filter_eq_nil_iff.mpr fun m mem => by simp [(mem_appendedTrees mem).1]
  obtain ⟨span, eq⟩ := installs.constructors
  rw [constructors_kept] at eq
  refine ⟨span, ?_⟩
  rw [members]
  unfold Lowering.constructors at eq ⊢
  rw [List.filter_append, appended, List.append_nil, eq]

/-- The fields of a lowered class. -/
theorem IsLoweredTo.fields {c : Component} {decl lowered : ClassDef}
    (h : IsLoweredTo c decl lowered) :
    fields lowered.members =
      (fields decl.members).filter fun f => !isLoweredField c (.field f) := by
  obtain ⟨installed, installs, members⟩ := h.members
  have appended : Component.fields (appendedTrees c.formAssociated c.elementMembers) = [] :=
    List.filterMap_eq_nil_iff.mpr fun m mem => (mem_appendedTrees mem).2
  rw [members, fields_append, appended, List.append_nil, installs.fields, fields_filter]

end ComponentLowering.Lowering
