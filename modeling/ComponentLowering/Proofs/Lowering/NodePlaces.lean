/-
# Where the nodes of a lowered module come from

Comments are printed at the nodes whose places they are anchored at, so code that is made up must not
have a place by accident.  All that is read as a snippet stands nowhere.  A node of a lowered module that
does not start at the top of the text is therefore one of the module, or one of the few that are given a
place on purpose: class statements, which stay where they were, and constructors, which stand where the
first constructor of the class or a replaced field stood.

An import that lost some of its names and a class that was only given other members count as nodes of the
module that keep their places, though they are not the same any more.
-/
import ComponentLowering.Proofs.Lowering.CommentPlaces
import ComponentLowering.Proofs.Lowering.MemberLayout
import ComponentLowering.Proofs.Lowering.PrunedImports
import ComponentLowering.Proofs.Syntax.Nodes

namespace ComponentLowering.Lowering

open ComponentLowering.Code ComponentLowering.Component ComponentLowering.Report
open ComponentLowering.Settings ComponentLowering.Style ComponentLowering.Syntax
open ComponentLowering.Syntax.Parser

variable {options : Options} {m : Module} {P : Node → Prop}

/-! ### Nodes of modules -/

/-- Whether a node is one of a module: a directive, or something within a statement. -/
inductive IsNodeOf (m : Module) : Node → Prop
  | directive {d : Directive} (mem : d ∈ m.directives) : IsNodeOf m (.directive d)
  | within {s : Stmt} {n : Node} (mem : s ∈ m.body) (within : Within (.stmt s) n) : IsNodeOf m n

/-- Whether a statement of a module declares a component, and is emitted as another one that holds a
class. -/
structure Emits (options : Options) (m : Module) (old : Stmt) (decl : ClassDef) (c : Component)
    (new : Stmt) (held : ClassDef) : Prop where
  mem : old ∈ m.body
  accepted : component? m.source old = some c
  cls : class? old = some decl
  emits : ∃ named s lowered, lowerClass decl c s = .ok lowered ∧
    new = emitted options c.className named lowered.decl (withClass lowered.decl old)
  holds : heldClass? new = some held

/-- Whether the constructor of a lowered class may stand at a place: where the first constructor of the
class stood, or where a field started that is replaced. -/
def IsConstructorPlace (c : Component) (decl : ClassDef) (span : Span) : Prop :=
  (∃ old, (constructors decl.members).head? = some old ∧ span = old.span) ∨
    ∃ field ∈ decl.members, isLoweredField c field = true ∧ span = .point field.span.start

/-- Where a node of a lowered module comes from, if it has a place. -/
inductive Stems (options : Options) (m : Module) : Node → Prop
  /-- It is a node of the module. -/
  | kept {n : Node} (node : IsNodeOf m n) : Stems options m n
  /-- It is an import of the module, less some of its names. -/
  | trimmed {d : ImportDecl} {inUse : List String} {n : Node} (mem : .importDecl d ∈ m.body)
      (is : n ∈ [.stmt (.importDecl (strip options.corePath inUse d)),
        .importDecl (strip options.corePath inUse d)]) : Stems options m n
  /-- It is a class statement, and stands where the statement stood. -/
  | statement {old new : Stmt} {decl held : ClassDef} {c : Component}
      (emits : Emits options m old decl c new held) (place : new.span = old.span) :
      Stems options m (.stmt new)
  /-- It is the class of such a statement, and stands where the statement or the class stood. -/
  | heldClass {old new : Stmt} {decl held : ClassDef} {c : Component} {n : Node}
      (emits : Emits options m old decl c new held)
      (place : held.span = old.span ∨ held.span = decl.span)
      (is : n ∈ [.stmt (.classDecl held), .classDef held]) : Stems options m n
  /-- It is the constructor of such a class, and stands where it may stand. -/
  | constructor {old new : Stmt} {decl held : ClassDef} {c : Component} {k : Method}
      {body : List Stmt} {n : Node} (emits : Emits options m old decl c new held)
      (mem : .method k ∈ held.members) (takesHost : .method k = hostConstructor k.span body)
      (place : IsConstructorPlace c decl k.span) (is : n ∈ [.member (.method k), .method k]) :
      Stems options m n

theorem IsNodeOf.trans {root n : Node} (node : IsNodeOf m root) (within : Within root n) :
    IsNodeOf m n := by
  cases node with
  | directive mem =>
    rcases Relation.ReflTransGen.cases_head within with rfl | ⟨child, mem', -⟩
    · exact .directive mem
    · cases mem'
  | within mem above => exact .within mem (above.trans within)

theorem IsNodeOf.eachPlaced {root : Node} (node : IsNodeOf m root) : root.EachPlaced (Stems options m) :=
  fun _ within _ => .kept (node.trans within)

/-! ### Classes within statements -/

theorem within_of_class? {s : Stmt} {decl : ClassDef} (cls : class? s = some decl) :
    Within (.stmt s) (.classDef decl) := by
  have here : Within (.stmt (.classDecl decl)) (.classDef decl) := .single List.mem_cons_self
  cases s with
  | classDecl old =>
    cases cls
    exact here
  | exportDecl span inner | exportDefault span inner =>
    cases inner <;> cases cls
    exact .head List.mem_cons_self here
  | _ => cases cls

/-- The statements of a constructor stand in it. -/
theorem within_bodyStatements {member : Member} {s : Stmt} (mem : s ∈ bodyStatements member) :
    Within (.member member) (.stmt s) := by
  cases member with
  | method k =>
    unfold bodyStatements at mem
    dsimp only at mem
    split at mem
    · rename_i span directives statements block
      have method : Node.func k.fn ∈ (Node.method k).children := by simp [Node.children]
      have body : Node.block span directives statements ∈ (Node.func k.fn).children := by
        simp [Node.children, block, Body.nodes]
      have inside : Node.stmt s ∈ (Node.block span directives statements).children := by
        simp [Node.children, mem]
      exact .head List.mem_cons_self (.head method (.head body (.single inside)))
    · cases mem
  | _ => cases mem

/-! ### Imports -/

/-- Dropping names leaves what stands below an import otherwise as it is. -/
theorem mem_children_strip {corePath : String} {inUse : List String} {d : ImportDecl} {n : Node}
    (mem : n ∈ (Node.importDecl (strip corePath inUse d)).children) :
    n ∈ (Node.importDecl d).children := by
  simp only [Node.children, strip_specifiers, List.mem_append, List.mem_map] at mem ⊢
  rcases mem with ⟨s, left, eq⟩ | others
  · exact .inl ⟨s, List.mem_of_mem_filter left, eq⟩
  · exact .inr others

theorem eachPlaced_strip {inUse : List String} {d : ImportDecl} (mem : .importDecl d ∈ m.body) :
    (Node.stmt (.importDecl (strip options.corePath inUse d))).EachPlaced (Stems options m) := by
  have below : ∀ n ∈ (Node.importDecl (strip options.corePath inUse d)).children,
      n.EachPlaced (Stems options m) := by
    intro n child
    have inside : Within (.stmt (.importDecl d)) n :=
      .head List.mem_cons_self (.single (mem_children_strip child))
    exact (IsNodeOf.within mem inside).eachPlaced
  exact .over (fun _ => .trimmed mem List.mem_cons_self) rfl
    (.intro (fun _ => .trimmed mem (List.mem_cons_of_mem _ List.mem_cons_self)) below)

/-! ### Constructors -/

/-- Of the new constructor, the statements that it goes on with have places, besides itself. -/
theorem eachPlaced_hostConstructor {span : Span} {internals : List String} {rest : List Stmt}
    {k : Method} (eq : .method k = hostConstructor span (injectedStatements internals ++ rest))
    (own : span.start ≠ 0 → P (.member (.method k)) ∧ P (.method k))
    (goesOn : ∀ s ∈ rest, (Node.stmt s).EachPlaced P) : (Node.member (.method k)).EachPlaced P := by
  obtain rfl := Member.method.inj eq
  have made := isPlaceless_of_classMembers (classMembers_constructorText internals) List.mem_cons_self
  have block : (Node.block .detached [] (injectedStatements internals ++ rest)).EachPlaced P := by
    refine .of_top rfl fun n child => ?_
    obtain ⟨s, mem, rfl⟩ := List.mem_map.mp child
    rcases List.mem_append.mp mem with injected | left
    · exact (made.of_within (within_bodyStatements injected)).eachPlaced
    · exact goesOn s left
  have func : (Node.func (madeFunction [hostName]
      (injectedStatements internals ++ rest))).EachPlaced P := by
    refine .of_top rfl fun n child => ?_
    obtain rfl | rfl : n = .param (madeParam hostName) ∨
        n = .block .detached [] (injectedStatements internals ++ rest) := by
      simpa [Node.children, madeFunction, Body.nodes] using child
    · exact (Node.isPlaceless_detach (.param (madeParam hostName))).eachPlaced
    · exact block
  refine .over (fun placed => (own placed).1) rfl ?_
  refine .intro (fun placed => (own placed).2) fun n child => ?_
  obtain rfl | rfl : n = .key (.name .detached "constructor") ∨
      n = .func (madeFunction [hostName] (injectedStatements internals ++ rest)) := by
    simpa [Node.children] using child
  · exact (Node.isPlaceless_detach (.key (.name .detached "constructor"))).eachPlaced
  · exact func

/-! ### Classes -/

/-- The members of a class with the new constructor: it has no place yet or the one of the first
constructor, and goes on with statements of the class. -/
theorem exists_constructed {c : Component} {decl : ClassDef} {constructed : Constructed}
    (installs : installConstructor (left c decl) (constructorStatements c) = .ok constructed) :
    ∃ before after span rest, constructed.members =
        before ++ hostConstructor span (injectedStatements c.internalsMembers ++ rest) :: after ∧
      (∀ m ∈ before, isConstructor m = false) ∧ (∀ m ∈ before ++ after, m ∈ decl.members) ∧
      (span = .detached ∨ IsConstructorPlace c decl span) ∧
      ∀ t ∈ rest, ∃ old ∈ decl.members, t ∈ bodyStatements old := by
  have of_left {member : Member} (mem : member ∈ left c decl) : member ∈ decl.members :=
    List.mem_of_mem_filter mem
  rcases exists_constructor_or (left c decl) with
    without | ⟨before, old, after, split, without, constructs⟩
  · rw [installConstructor_first without] at installs
    cases installs
    exact ⟨[], left c decl, .detached, [], by simp, List.forall_mem_nil _, fun _ => of_left, .inl rfl,
      List.forall_mem_nil _⟩
  · have here : old ∈ decl.members := of_left (by simp [split])
    have others : ∀ m ∈ before ++ after, m ∈ decl.members := by
      intro m mem
      refine of_left (split ▸ ?_)
      rcases List.mem_append.mp mem with first | later
      · exact List.mem_append_left _ first
      · exact List.mem_append_right _ (List.mem_cons_of_mem _ later)
    have head : (constructors decl.members).head? = some old := by
      rw [← constructors_kept c]
      exact (congrArg (fun ms => (constructors ms).head?) split).trans
        (head?_constructors without constructs)
    rw [split, installConstructor_instead without constructs] at installs
    cases installs
    exact ⟨before, after, old.span, _, rfl, without, others, .inr (.inl ⟨old, head, rfl⟩),
      fun t mem => ⟨old, here, mem⟩⟩

/-- A member of a lowered class is one of the class or stands nowhere, or it is the constructor, which
goes on with statements of the class.  Of the places that it may have, the one of a replaced field is given
to it last, when it has none and the comments of the field have to go somewhere. -/
theorem mem_members_lowered {decl : ClassDef} {c : Component} {s : ModuleState} {lowered : LoweredClass}
    (lowers : lowerClass decl c s = .ok lowered) {member : Member}
    (mem : member ∈ lowered.decl.members) :
    member ∈ decl.members ∨ (Node.member member).IsPlaceless ∨ ∃ span rest,
      member = hostConstructor span (injectedStatements c.internalsMembers ++ rest) ∧
      (span = .detached ∨ IsConstructorPlace c decl span) ∧
      ∀ t ∈ rest, ∃ old ∈ decl.members, t ∈ bodyStatements old := by
  obtain ⟨constructed, installs, eq, -, -⟩ := lowerClass_parts lowers
  obtain ⟨before, after, span, rest, members, without, others, place, goesOn⟩ :=
    exists_constructed installs
  obtain ⟨span', moved, elsewhere⟩ := allFieldMoves_places without span
    (injectedStatements c.internalsMembers ++ rest) after (loweredOffsets c decl.members)
  have place' : span' = .detached ∨ IsConstructorPlace c decl span' := by
    rcases elsewhere with rfl | ⟨-, offset, replaced, rfl⟩
    · exact place
    · obtain ⟨field, mem, rfl⟩ := List.mem_map.mp replaced
      obtain ⟨mem, is⟩ := List.mem_filter.mp mem
      exact .inr (.inr ⟨field, mem, is, rfl⟩)
  rw [eq, members, moved] at mem
  rcases List.mem_append.mp mem with kept | getter
  · rcases List.mem_append.mp kept with first | later
    · exact .inl (others member (List.mem_append_left _ first))
    · rcases List.mem_cons.mp later with rfl | later
      · exact .inr (.inr ⟨span', rest, rfl, place', goesOn⟩)
      · exact .inl (others member (List.mem_append_right _ later))
  · have read := (classMembers_appendedText c.formAssociated c.elementMembers).1
      (not_mem_elementMembers lowers)
    exact .inr (.inl (isPlaceless_of_classMembers read getter))

/-- Besides its members, a lowered class is made of pieces of the class. -/
theorem mem_children_lowered {decl : ClassDef} {c : Component} {s : ModuleState} {lowered : LoweredClass}
    (lowers : lowerClass decl c s = .ok lowered) {n : Node}
    (mem : n ∈ (Node.classDef lowered.decl).children) :
    n ∈ (Node.classDef decl).children ∨ ∃ member ∈ lowered.decl.members, n = .member member := by
  have rest := (lowerClass_ok lowers).rest
  generalize lowered.decl = new at mem rest ⊢
  rw [rest] at mem
  simp only [Node.children, List.mem_append, List.mem_map, List.mem_filter] at mem ⊢
  grind

/-- Where a class is put into another statement, its name may be written anew. -/
theorem mem_children_emittedClass {className : String} {named : isBindingName className = true}
    {lowered : ClassDef} {s : Stmt} {n : Node}
    (mem : n ∈ (Node.classDef (emittedClass options className named lowered s)).children) :
    n ∈ (Node.classDef lowered).children ∨ n.IsPlaceless := by
  have name : (Node.ident ⟨.detached, className⟩).IsPlaceless :=
    Node.isPlaceless_detach (.ident ⟨.detached, className⟩)
  unfold emittedClass at mem
  generalize classShape options s = shape at mem
  cases shape with
  | constant exported =>
    simp only [Node.children, fillClass, madeClass, List.mem_append, List.mem_map] at mem ⊢
    grind
  | declaration =>
    simp only [Node.children, fillClass, madeClass, List.mem_append, List.mem_map] at mem ⊢
    grind
  | unchanged => exact .inl mem

variable {old new : Stmt} {decl held : ClassDef} {c : Component}

/-- The class that is emitted is the lowered one, in the form that the options ask for. -/
theorem Emits.eq_emittedClass (emits : Emits options m old decl c new held) :
    ∃ named s lowered, lowerClass decl c s = .ok lowered ∧
      new = emitted options c.className named lowered.decl (withClass lowered.decl old) ∧
      held = emittedClass options c.className named lowered.decl (withClass lowered.decl old) := by
  obtain ⟨named, s, lowered, lowers, eq⟩ := emits.emits
  have holds := emits.holds
  rw [eq, heldClass?_emitted named emits.cls] at holds
  exact ⟨named, s, lowered, lowers, eq, (Option.some.inj holds).symm⟩

/-- What stands within the class of the module is within the module. -/
theorem Emits.isNodeOf (emits : Emits options m old decl c new held) {n : Node}
    (within : Within (.classDef decl) n) : IsNodeOf m n :=
  .within emits.mem ((within_of_class? emits.cls).trans within)

theorem Emits.eachPlaced_member (emits : Emits options m old decl c new held) {member : Member}
    (mem : member ∈ held.members) : (Node.member member).EachPlaced (Stems options m) := by
  have of_decl {member : Member} (mem : member ∈ decl.members) : IsNodeOf m (.member member) :=
    emits.isNodeOf (.single (by simp [Node.children, mem]))
  obtain ⟨named, s, lowered, lowers, -, eq⟩ := emits.eq_emittedClass
  have inLowered : member ∈ lowered.decl.members := by rwa [eq, emittedClass_members] at mem
  rcases mem_members_lowered lowers inLowered with
    kept | placeless | ⟨span, rest, constructs, place, goesOn⟩
  · exact (of_decl kept).eachPlaced
  · exact placeless.eachPlaced
  · obtain ⟨k, isMethod⟩ : ∃ k, member = .method k := ⟨_, constructs⟩
    subst isMethod
    obtain rfl : k.span = span := congrArg Member.span constructs
    refine eachPlaced_hostConstructor constructs (fun placed => ?_) fun t mem => ?_
    · have place := place.resolve_left fun none => placed (by rw [none]; rfl)
      exact ⟨.constructor emits mem constructs place List.mem_cons_self,
        .constructor emits mem constructs place (List.mem_cons_of_mem _ List.mem_cons_self)⟩
    · obtain ⟨was, mem, continues⟩ := goesOn t mem
      exact ((of_decl mem).trans (within_bodyStatements continues)).eachPlaced

/-- The class is held without a place, where the statement stood or where the class stood. -/
theorem Emits.span_held (emits : Emits options m old decl c new held) :
    held.span = .detached ∨ held.span = old.span ∨ held.span = decl.span := by
  obtain ⟨named, s, lowered, lowers, -, rfl⟩ := emits.eq_emittedClass
  have same := (lowerClass_ok lowers).span
  unfold emittedClass
  split
  · exact .inl rfl
  · exact .inr (.inl (span_withClass emits.cls same))
  · exact .inr (.inr same)

theorem Emits.stems_held (emits : Emits options m old decl c new held) {n : Node}
    (is : n ∈ [.stmt (.classDecl held), .classDef held]) (placed : held.span.start ≠ 0) :
    Stems options m n :=
  .heldClass emits (emits.span_held.resolve_left fun none => placed (by rw [none]; rfl)) is

theorem Emits.eachPlaced_held (emits : Emits options m old decl c new held) :
    (Node.classDef held).EachPlaced (Stems options m) := by
  refine .intro (emits.stems_held (List.mem_cons_of_mem _ List.mem_cons_self)) fun n child => ?_
  obtain ⟨named, s, lowered, lowers, -, eq⟩ := emits.eq_emittedClass
  rw [eq] at child
  rcases mem_children_emittedClass child with child | placeless
  · rcases mem_children_lowered lowers child with kept | ⟨member, mem, rfl⟩
    · exact (emits.isNodeOf (.single kept)).eachPlaced
    · exact emits.eachPlaced_member (by rwa [eq, emittedClass_members])
  · exact placeless.eachPlaced

/-- The variable that is bound to a class. -/
def boundClass (className : String) (held : ClassDef) : Declarator :=
  ⟨.detached, .ident .detached className, false, false, none, some (.classExpr held)⟩

/-- The forms of what a component becomes: a constant that holds the class, exported or not, a
declaration of the class, or the statement as it was with the class in it. -/
theorem Emits.forms (emits : Emits options m old decl c new held) :
    (held.span = .detached ∧ ∃ span,
      new = .variableDecl span false .const [boundClass c.className held] ∨
      new = .exportDecl span (.variableDecl .detached false .const [boundClass c.className held])) ∨
    new = .classDecl held ∨ new = withClass held old := by
  obtain ⟨named, s, lowered, -, isNew, isHeld⟩ := emits.eq_emittedClass
  unfold emitted at isNew
  unfold emittedClass at isHeld
  generalize classShape options (withClass lowered.decl old) = shape at isNew isHeld
  cases shape with
  | constant exported =>
    subst isHeld
    cases exported with
    | false => exact .inl ⟨rfl, _, .inl isNew⟩
    | true => exact .inl ⟨rfl, _, .inr isNew⟩
  | declaration => exact .inr (.inl (isNew.trans (congrArg Stmt.classDecl isHeld.symm)))
  | unchanged =>
    subst isHeld
    exact .inr (.inr isNew)

/-- Of a constant that is made to hold a class, only the class can hold places, besides the statement. -/
theorem eachPlaced_constant {span : Span} {className : String}
    (own : span.start ≠ 0 →
      P (.stmt (.variableDecl span false .const [boundClass className held])))
    (top : held.span = .detached) (inner : (Node.classDef held).EachPlaced P) :
    (Node.stmt (.variableDecl span false .const [boundClass className held])).EachPlaced P := by
  refine .over own rfl (.of_top rfl fun n child => ?_)
  obtain rfl | rfl : n = .pattern (.ident .detached className) ∨ n = .expr (.classExpr held) := by
    simpa [Node.children, boundClass] using child
  · exact (Node.isPlaceless_detach (.pattern (.ident .detached className))).eachPlaced
  · exact .over (absurd (congrArg Span.start top)) rfl inner

theorem eachPlaced_withClass (cls : class? old = some decl) (own : P (.stmt (withClass held old)))
    (alone : (Node.stmt (.classDecl held)).EachPlaced P) :
    (Node.stmt (withClass held old)).EachPlaced P := by
  cases old with
  | classDecl was => exact alone
  | exportDecl span inner | exportDefault span inner =>
    cases inner <;> cases cls
    exact .over (fun _ => own) rfl alone
  | _ => cases cls

/-- Each node with a place of the statement that a component becomes comes from where it may. -/
theorem Emits.eachPlaced (emits : Emits options m old decl c new held) :
    (Node.stmt new).EachPlaced (Stems options m) := by
  have inner := emits.eachPlaced_held
  have alone : (Node.stmt (.classDecl held)).EachPlaced (Stems options m) :=
    .over (emits.stems_held List.mem_cons_self) rfl inner
  have own : Stems options m (.stmt new) := by
    obtain ⟨named, s, lowered, lowers, isNew, -⟩ := emits.eq_emittedClass
    refine .statement emits ?_
    rw [isNew, span_emitted named emits.cls (lowerClass_ok lowers).span]
  rcases emits.forms with ⟨top, span, rfl | rfl⟩ | rfl | rfl
  · exact eachPlaced_constant (fun _ => own) top inner
  · exact .over (fun _ => own) rfl (eachPlaced_constant (absurd rfl) top inner)
  · exact alone
  · exact eachPlaced_withClass emits.cls own alone

/-! ### What is written anew -/

@[simp]
theorem detach_sumTree (names : List String) : (sumTree names).detach = sumTree names := by
  have add (more : List String) : ∀ e : Expr, e.detach = e →
      (more.foldl (fun e n => .binary .detached .add e (.ident .detached n)) e).detach =
        more.foldl (fun e n => .binary .detached .add e (.ident .detached n)) e := by
    induction more with
    | nil => exact fun e same => same
    | cons n more ih => exact fun e same => ih _ (by simp [Expr.detach, same])
  exact add _ _ rfl

@[simp]
theorem detach_objectTree (bindings : List Binding) :
    (objectTree bindings).detach = objectTree bindings := by
  have key (k : String) : (keyTree k).detach = keyTree k := by
    unfold keyTree
    split <;> rfl
  simp [objectTree, memberOf, MadeMember.tree, Expr.detach, detachExprs_eq_map, key]

/-- The assignment of styles stands nowhere. -/
theorem isPlaceless_assigned {c : Component} {assigned : List Stmt} (assigns : Assigns options c assigned)
    {t : Stmt} (mem : t ∈ assigned) : (Node.stmt t).IsPlaceless := by
  cases assigns with
  | none styles => cases mem
  | @some refs bindings styles keys =>
    obtain rfl := List.mem_singleton.mp mem
    have tree : (styleTree refs bindings).detach = styleTree refs bindings := by
      cases refs <;> simp [styleTree]
    have same : (styleAssignment c.className (styleTree refs bindings)).detach =
        styleAssignment c.className (styleTree refs bindings) := by
      simp [styleAssignment, madeAssignment, styleTarget, Stmt.detach, Expr.detach, Pattern.detach,
        Ident.detach, tree]
    have detached := Node.isPlaceless_detach
      (.stmt (styleAssignment c.className (styleTree refs bindings)))
    rwa [Node.detach, same] at detached

/-- The imports that lowering needs are read as snippets, so they stand nowhere. -/
theorem importNeeded_ok {lowered : LoweredBody} {body all : List Stmt}
    (h : importNeeded options lowered body = .ok all) :
    ∃ core styles, all = withImports options.convention core styles body ∧
      ∀ s ∈ core ++ styles, (Node.stmt s).IsPlaceless := by
  unfold importNeeded at h
  obtain ⟨styles, read, h⟩ := ok_of_bind h
  have placeless : ∀ s ∈ styles, (Node.stmt s).IsPlaceless := fun s => isPlaceless_of_statements read
  dsimp only at h
  split at h
  · obtain ⟨core, readCore, h⟩ := ok_of_bind h
    cases h
    exact ⟨[core], styles, rfl,
      List.forall_mem_cons.mpr ⟨isPlaceless_of_statement readCore, placeless⟩⟩
  · cases h
    exact ⟨[], styles, rfl, placeless⟩

/-! ### Modules -/

theorem isImport_of_heldClass? {s : Stmt} (holds : heldClass? s = some held) : isImport s = false := by
  cases s <;> first | rfl | cases holds

/-- What the statements of a module contribute besides themselves are no imports, and their nodes with a
place come from where they may. -/
theorem contributes_eachPlaced {statement : Stmt} {piece : List Stmt} (mem : statement ∈ m.body)
    (contributes : Contributes m.source options statement piece) {t : Stmt} (part : t ∈ piece) :
    t ∈ m.body ∨ (isImport t = false ∧ (Node.stmt t).EachPlaced (Stems options m)) := by
  rcases contributes_cases contributes with
    ⟨-, rfl⟩ | ⟨c, named, decl, s, lowered, assigned, accepted, cls, lowers, assigns, rfl⟩
  · exact .inl (List.mem_singleton.mp part ▸ mem)
  · rcases List.mem_cons.mp part with rfl | assigned
    · have holds := @heldClass?_emitted options statement decl lowered.decl _ named cls
      have emits : Emits options m statement decl c _ _ :=
        ⟨mem, accepted, cls, ⟨named, s, lowered, lowers, rfl⟩, holds⟩
      exact .inr ⟨isImport_of_heldClass? holds, emits.eachPlaced⟩
    · obtain ⟨value, rfl⟩ := assigns.eq_expression assigned
      exact .inr ⟨rfl, (isPlaceless_assigned assigns assigned).eachPlaced⟩

/-- Pruning leaves statements as they are or takes names out of imports. -/
theorem eachPlaced_pruned {body : List Stmt}
    (each : ∀ t ∈ body, t ∈ m.body ∨ (isImport t = false ∧ (Node.stmt t).EachPlaced (Stems options m)))
    {t : Stmt} (mem : t ∈ (pruneImports options.corePath body).1) :
    (Node.stmt t).EachPlaced (Stems options m) := by
  have stays {s : Stmt} (mem : s ∈ body) : (Node.stmt s).EachPlaced (Stems options m) := by
    rcases each s mem with kept | ⟨-, placed⟩
    · exact (IsNodeOf.within kept .refl).eachPlaced
    · exact placed
  obtain ⟨s, inBody, left⟩ := mem_pruneImports.mp mem
  cases s with
  | importDecl d =>
    rcases each _ inBody with kept | ⟨import?, -⟩
    · rw [pruneStatement_importDecl] at left
      obtain rfl : t = .importDecl (strip options.corePath (decoratorsInUse body) d) := by
        dsimp only at left
        split at left
        · cases left
        · exact List.mem_singleton.mp left
      exact eachPlaced_strip kept
    · cases import?
  | _ =>
    obtain rfl := List.mem_singleton.mp left
    exact stays inBody

variable {out : Module} {report : LoweringReport} {log log' : Log}

/-- The statements of a lowered module. -/
theorem eachPlaced_lowered (h : Gives (lowerModule options m) (report, out))
    (nonempty : report.components ≠ []) {t : Stmt} (mem : t ∈ out.body) :
    (Node.stmt t).EachPlaced (Stems options m) := by
  obtain ⟨lowered, lowers, rfl, -, needed⟩ := lowerModule_ok h
  obtain ⟨pieces, contribute, statements⟩ := (lowers_statements (initialState_eq m.body).1 lowers).pieces
  have each : ∀ t ∈ lowered.statements,
      t ∈ m.body ∨ (isImport t = false ∧ (Node.stmt t).EachPlaced (Stems options m)) := by
    intro t mem
    rw [statements] at mem
    obtain ⟨piece, here, part⟩ := List.mem_flatten.mp mem
    obtain ⟨statement, pair⟩ := (mem_of_forall₂_zip contribute).2 piece here
    exact contributes_eachPlaced (List.of_mem_zip pair).1 (List.forall₂_zip contribute pair) part
  obtain ⟨core, styles, body, placeless⟩ := importNeeded_ok (needed nonempty).2
  rw [body, mem_withImports] at mem
  rcases mem with made | made | left
  · exact (placeless t (List.mem_append_left _ made)).eachPlaced
  · exact (placeless t (List.mem_append_right _ made)).eachPlaced
  · exact eachPlaced_pruned each left

theorem directives_lowerModule (h : Gives (lowerModule options m) (report, out))
    (nonempty : report.components ≠ []) : out.directives = m.directives := by
  rw [lowerModule_frame h nonempty, anchoredComments_eq]

/-- Code that is made up stands nowhere: all that a text is read as, statements and class members, has
the empty place at the top, and so has every node of it.  So a node of a lowered module with components that
starts elsewhere is one of the module, or a class statement or constructor that was put at the place of what
it replaces. -/
theorem lowerModule_stems (options : Options) (m : Module) :
    (∀ text, IsReadPlaceless text) ∧
      ∀ {report : LoweringReport} {out : Module} {log log' : Log},
        (lowerModule options m).run.run log = (.ok (report, out), log') → report.components ≠ [] →
        ∀ n, IsNodeOf out n → n.span.start ≠ 0 → Stems options m n := by
  refine ⟨isReadPlaceless, fun {report out log log'} run nonempty n node placed => ?_⟩
  have gives : Gives (lowerModule options m) (report, out) := ⟨log, log', run⟩
  cases node with
  | directive mem =>
    rw [directives_lowerModule gives nonempty] at mem
    exact .kept (.directive mem)
  | within mem within => exact eachPlaced_lowered gives nonempty mem n within placed

/-! ### A class without a constructor -/

/-- A module with an import that loses some of its names, and a component whose last member is a field
that is replaced.  The class has no constructor, so the new one gets the place of the field. -/
def trailingField : String :=
  "a();\nimport \x7b Component, Element, h \x7d from '@stencil/core';\n" ++
    "@Component(\x7b tag: 'a-a' \x7d)\nexport class A \x7b\n  m() \x7b\x7d\n  @Element() el;\n\x7d\n"

/-- Whether lowering a module gives it a constructor with a place. -/
def placesConstructor (options : Options) (m : Module) : Bool :=
  match (lowerModule options m).run.run [] with
  | (.ok (report, out), _) =>
    !report.components.isEmpty && (out.body.filterMap heldClass?).any fun held =>
      held.members.any fun member => isConstructor member && member.span.start != 0
  | _ => false

theorem of_placesConstructor (h : placesConstructor options m = true) :
    ∃ report out log, (lowerModule options m).run.run [] = (.ok (report, out), log) ∧
      report.components ≠ [] ∧ ∃ held ∈ out.body.filterMap heldClass?, ∃ member ∈ held.members,
        isConstructor member = true ∧ member.span.start ≠ 0 := by
  unfold placesConstructor at h
  split at h
  · rename_i report out log run
    simp only [Bool.and_eq_true, Bool.not_eq_true', List.isEmpty_eq_false_iff, List.any_eq_true,
      bne_iff_ne] at h
    exact ⟨report, out, log, run, h⟩
  · cases h

theorem trailingField_read :
    ∃ m, Module.read (.ofPath "a.ts") trailingField.toList = .ok m ∧
      placesConstructor defaults m = true :=
  exists_of_read (by decide +kernel)

/-- The class is lowered and its constructor has a place, so it is known where this comes from. -/
theorem trailingField_stems :
    ∃ m report out log, Module.read (.ofPath "a.ts") trailingField.toList = .ok m ∧
      (lowerModule defaults m).run.run [] = (.ok (report, out), log) ∧ report.components ≠ [] ∧
      (∃ held ∈ out.body.filterMap heldClass?, ∃ member ∈ held.members,
        isConstructor member = true ∧ member.span.start ≠ 0) ∧
      ∀ n, IsNodeOf out n → n.span.start ≠ 0 → Stems defaults m n := by
  obtain ⟨m, read, places⟩ := trailingField_read
  obtain ⟨report, out, log, run, nonempty, held⟩ := of_placesConstructor places
  exact ⟨m, report, out, log, read, run, nonempty, held, (lowerModule_stems defaults m).2 run nonempty⟩

end ComponentLowering.Lowering
