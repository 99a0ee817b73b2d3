/-
# Places of comments

A comment is written in front of what starts at its anchor.  Lowering takes syntax away and puts other
syntax in its place, and the comments in front of it move along: those of component decorators, of
fields, and of statements that are rebuilt.  Nothing moves the comments in front of an import that is
dropped as a whole.  They are lost, unless they stand at the top of the module.

That a comment is found at its anchor is all that is claimed; in which order comments are written, and
which of them are, is up to the printer.
-/
import ComponentLowering.Proofs.Lowering.ClassForms
import ComponentLowering.Proofs.Lowering.KeptImports
import ComponentLowering.Proofs.Lowering.MovedComments
import Mathlib.Data.List.Pairwise

namespace ComponentLowering.Lowering

open ComponentLowering.Component ComponentLowering.Report ComponentLowering.Settings
open ComponentLowering.Style ComponentLowering.Syntax

variable {source : List Char} {options : Options} {corePath : String} {statement : Stmt}

/-! ### Places -/

/-- The offsets at which a class has decorators and members. -/
def classPlaces (decl : ClassDef) : List Nat :=
  decl.decorators.map (·.span.start) ++ starts decl.members

/-- The offsets at which a statement and the decorators and members of its class start. -/
def statementPlaces (s : Stmt) : List Nat :=
  s.span.start :: ((heldClass? s).map classPlaces).getD []

/-- The offsets at which the directives of a module, its statements, and the decorators and members of
their classes start. -/
def places (m : Module) : List Nat :=
  m.directives.map (·.span.start) ++ m.body.flatMap statementPlaces

/-- Where the comments in front of a statement and its parts are anchored: at its first token, and for a
component also at the component decorator and at the members of the class. -/
inductive Leads (source : List Char) (statement : Stmt) : Nat → Prop
  | token : Leads source statement (leadingOffset statement)
  | decorator {a : Nat} (accepted : (component? source statement).isSome = true)
      (first : componentOffset? statement = some a) : Leads source statement a
  | member {decl : ClassDef} {member : Member}
      (accepted : (component? source statement).isSome = true)
      (cls : class? statement = some decl) (mem : member ∈ decl.members) :
      Leads source statement member.span.start

/-- Where leading comments are anchored in a module. -/
inductive IsLeading (m : Module) : Nat → Prop
  | directive {d : Directive} (mem : d ∈ m.directives) : IsLeading m d.span.start
  | statement {s : Stmt} {a : Nat} (mem : s ∈ m.body) (leads : Leads m.source s a) : IsLeading m a

theorem mem_statementPlaces {decl : ClassDef} {a : Nat} (cls : class? statement = some decl) :
    a ∈ statementPlaces statement ↔ a = statement.span.start ∨ a ∈ classPlaces decl := by
  unfold statementPlaces
  rw [heldClass?_of_class? cls, Option.map_some, Option.getD_some, List.mem_cons]

/-- The first token of a statement is its own or that of its first decorator. -/
theorem leadingOffset_cases (statement : Stmt) :
    leadingOffset statement = statement.span.start ∨
      ∃ decl d rest, class? statement = some decl ∧ decl.decorators = d :: rest ∧
        leadingOffset statement = d.span.start := by
  unfold leadingOffset
  cases cls : class? statement with
  | none => exact .inl rfl
  | some decl =>
      dsimp only
      cases decorators : decl.decorators with
      | nil => exact .inl rfl
      | cons d rest =>
          rcases min_choice d.span.start statement.span.start with first | second
          · exact .inr ⟨decl, d, rest, rfl, decorators, first⟩
          · exact .inl second

theorem leadingOffset_mem (statement : Stmt) : leadingOffset statement ∈ statementPlaces statement := by
  obtain own | ⟨decl, d, rest, cls, decorators, first⟩ := leadingOffset_cases statement
  · rw [own]
    exact List.mem_cons_self ..
  · rw [first, mem_statementPlaces cls]
    refine .inr (List.mem_append_left _ (List.mem_map_of_mem ?_))
    rw [decorators]
    exact List.mem_cons_self ..

/-! ### What follows a statement -/

/-- How a statement, the piece that it contributes and the moves of its comments belong together. -/
structure Follows (source : List Char) (statement : Stmt) (piece : List Stmt)
    (moves : List CommentMove) : Prop where
  /-- Comments move away from places of the statement only. -/
  sources : ∀ move ∈ moves, move.source ∈ statementPlaces statement
  /-- They move to places of the piece. -/
  targets : ∀ move ∈ moves, IsAmong (piece.flatMap statementPlaces) move.target
  /-- Where leading comments are anchored there is a place of the piece, or they move away. -/
  leading : ∀ a, Leads source statement a →
    IsAmong (piece.flatMap statementPlaces) a ∨ ∃ move ∈ moves, move.source = a
  /-- The piece has no other places than the statement. -/
  places : ∀ a ∈ piece.flatMap statementPlaces, IsAmong (statementPlaces statement) a

theorem statementMoves_of_other (other : component? source statement = none) :
    statementMoves source statement = [] := by
  unfold component? at other
  unfold statementMoves
  cases cls : class? statement with
  | none => rfl
  | some decl =>
      rw [cls] at other
      simp only [Option.map_some] at other ⊢
      cases reads : readClass source decl with
      | component c =>
          rw [reads] at other
          cases other
      | plain => rfl
      | skipped reason => rfl

theorem follows_unchanged (other : component? source statement = none) :
    Follows source statement [statement] (statementMoves source statement) := by
  rw [statementMoves_of_other other]
  refine ⟨fun _ mem => absurd mem List.not_mem_nil, fun _ mem => absurd mem List.not_mem_nil, ?_, ?_⟩
  · rintro a (_ | ⟨accepted, _⟩ | ⟨accepted, _, _⟩)
    · exact .inl (.of_mem (by rw [List.flatMap_singleton]; exact leadingOffset_mem statement))
    · rw [other] at accepted
      cases accepted
    · rw [other] at accepted
      cases accepted
  · intro a mem
    rw [List.flatMap_singleton] at mem
    exact .of_mem mem

/-- Another class at the same place leaves its statement where it is. -/
theorem span_withClass {decl new : ClassDef} (cls : class? statement = some decl)
    (same : new.span = decl.span) : (withClass new statement).span = statement.span := by
  cases statement with
  | classDecl old =>
      cases cls
      exact same
  | exportDecl span inner => cases inner <;> rfl
  | exportDefault span inner => cases inner <;> rfl
  | _ => rfl

/-- A class statement stays where it is, whatever form its class is given. -/
theorem span_emitted {className : String} (named : isBindingName className = true)
    {decl lowered : ClassDef} (cls : class? statement = some decl) (same : lowered.span = decl.span) :
    (emitted options className named lowered (withClass lowered statement)).span = statement.span := by
  have stays := span_withClass cls same
  unfold emitted
  cases classShape options (withClass lowered statement) with
  | constant exported => cases exported <;> exact stays
  | declaration => exact stays
  | unchanged => exact stays

/-- The places of the statement that is emitted for a class are its own and those of the class. -/
theorem statementPlaces_emitted {className : String} (named : isBindingName className = true)
    {decl lowered : ClassDef} (cls : class? statement = some decl) (same : lowered.span = decl.span) :
    statementPlaces (emitted options className named lowered (withClass lowered statement)) =
      statement.span.start :: classPlaces lowered := by
  have content := @sameContent_emittedClass options (withClass lowered statement) lowered _ named
  unfold statementPlaces
  rw [span_emitted named cls same, heldClass?_emitted named cls, Option.map_some, Option.getD_some,
    classPlaces, content.decorators, content.members]
  rfl

theorem mem_places_assigned {c : Component} {assigned : List Stmt} {a : Nat}
    (assigns : Assigns options c assigned) (mem : a ∈ assigned.flatMap statementPlaces) : a = 0 := by
  cases assigns with
  | none styles => cases mem
  | some styles keys =>
      rw [List.flatMap_singleton] at mem
      exact List.mem_singleton.mp mem

/-! ### Component decorators -/

theorem componentOffset?_eq {decl : ClassDef} (cls : class? statement = some decl) :
    componentOffset? statement =
      (decl.decorators.find? isComponentDecorator).map (·.span.start) := by
  unfold componentOffset?
  rw [cls]
  cases found : decl.decorators.find? isComponentDecorator <;> simp [found]

/-- Where the comments in front of the component decorator move. -/
def decoratorMoves (statement : Stmt) : List CommentMove :=
  ((componentOffset? statement).map fun a => moveTo a statement.span.start).getD []

/-- Comments move from the component decorator to the statement. -/
theorem mem_decoratorMoves {move : CommentMove} (h : move ∈ decoratorMoves statement) :
    componentOffset? statement = some move.source ∧ move.target = statement.span.start := by
  unfold decoratorMoves at h
  cases offset : componentOffset? statement with
  | none =>
      rw [offset] at h
      cases h
  | some a =>
      rw [offset] at h
      rw [moveTo_source h]
      exact ⟨rfl, rfl⟩

theorem eq_or_mem_decoratorMoves {a : Nat} (h : componentOffset? statement = some a) :
    a = statement.span.start ∨ ∃ move ∈ decoratorMoves statement, move.source = a := by
  unfold decoratorMoves
  rw [h]
  exact (eq_or_mem_moveTo a statement.span.start).imp_right fun mem => ⟨_, mem, rfl⟩

/-- The first token of a component is its own, its component decorator, or a decorator that stays. -/
theorem leadingOffset_of_class {decl : ClassDef} (cls : class? statement = some decl) :
    leadingOffset statement = statement.span.start ∨
      componentOffset? statement = some (leadingOffset statement) ∨
      leadingOffset statement ∈
        (decl.decorators.filter fun d => !isComponentDecorator d).map (·.span.start) := by
  obtain own | ⟨decl', d, more, cls', decorators, eq⟩ := leadingOffset_cases statement
  · exact .inl own
  · rw [cls] at cls'
    cases cls'
    rw [eq, componentOffset?_eq cls, decorators]
    cases erased : isComponentDecorator d with
    | true => exact .inr (.inl (by rw [List.find?_cons_of_pos erased]; rfl))
    | false =>
        rw [List.filter_cons_of_pos (by rw [erased]; rfl)]
        exact .inr (.inr (List.mem_cons_self ..))

theorem statementMoves_of_component {decl : ClassDef} {c : Component}
    (cls : class? statement = some decl) (reads : readClass source decl = .component c) :
    statementMoves source statement = decoratorMoves statement ++ classMoves decl c := by
  unfold statementMoves movedState decoratorMoves
  rw [cls]
  simp only [Option.map_some, reads]
  cases componentOffset? statement with
  | none => rfl
  | some a =>
      simp only [moveComments_eq]
      rfl

/-! ### Components -/

/-- The comments of a component follow it. -/
theorem follows_component {decl : ClassDef} {c : Component} {s : ModuleState}
    {lowered : LoweredClass} {assigned : List Stmt} (named : isBindingName c.className = true)
    (cls : class? statement = some decl) (reads : readClass source decl = .component c)
    (lowers : lowerClass decl c s = .ok lowered) (assigns : Assigns options c assigned) :
    Follows source statement
      (emitted options c.className named lowered.decl (withClass lowered.decl statement) :: assigned)
      (statementMoves source statement) := by
  have rest := (lowerClass_ok lowers).rest
  have decorators := (lowerClass_ok lowers).decorators
  have moved := movesAway_lowerClass lowers
  have emittedPlaces := @statementPlaces_emitted options _ _ named _ _ cls
    (show lowered.decl.span = decl.span by rw [rest])
  have own {a : Nat} (h : a ∈ statement.span.start :: classPlaces lowered.decl) :
      a ∈ (emitted options c.className named lowered.decl (withClass lowered.decl statement) ::
        assigned).flatMap statementPlaces := by
    rw [List.flatMap_cons, emittedPlaces]
    exact List.mem_append_left _ h
  have start := own (List.mem_cons_self ..)
  have member {a : Nat} (h : a ∈ starts lowered.decl.members) :=
    own (List.mem_cons_of_mem _ (List.mem_append_right _ h))
  rw [statementMoves_of_component cls reads]
  refine ⟨fun move mem => ?sources, fun move mem => ?targets, fun a leads => ?leading,
    fun a mem => ?places⟩
  case sources =>
    rw [mem_statementPlaces cls]
    rcases List.mem_append.mp mem with here | inside
    · have offset := (mem_decoratorMoves here).1
      rw [componentOffset?_eq cls] at offset
      obtain ⟨d, found, eq⟩ := Option.map_eq_some_iff.mp offset
      rw [← eq]
      exact .inr (List.mem_append_left _ (List.mem_map_of_mem (List.mem_of_find?_eq_some found)))
    · exact .inr (List.mem_append_right _
        (mem_starts_iff.mpr (List.mem_append_right _ (moved.sources move inside))))
  case targets =>
    rcases List.mem_append.mp mem with here | inside
    · rw [(mem_decoratorMoves here).2]
      exact .of_mem start
    · exact (moved.targets move inside).trans fun _ mem => .of_mem (member mem)
  case leading =>
    have atDecorator {a : Nat} (h : componentOffset? statement = some a) :=
      (eq_or_mem_decoratorMoves h).imp
        (fun same => IsAmong.of_mem (same ▸ start))
        (fun ⟨move, mem, eq⟩ =>
          show ∃ move ∈ decoratorMoves statement ++ classMoves decl c, move.source = a from
            ⟨move, List.mem_append_left _ mem, eq⟩)
    cases leads with
    | token =>
        rcases leadingOffset_of_class cls with same | offset | stays
        · exact .inl (.of_mem (same ▸ start))
        · exact atDecorator offset
        · refine .inl (.of_mem (own (List.mem_cons_of_mem _ (List.mem_append_left _ ?_))))
          rw [decorators]
          exact stays
    | decorator accepted first => exact atDecorator first
    | member accepted cls' mem =>
        rw [cls] at cls'
        cases cls'
        rcases List.mem_append.mp (mem_starts_iff.mp (List.mem_map_of_mem mem)) with stays | gone
        · exact .inl ((moved.kept _ stays).trans fun _ mem => .of_mem (member mem))
        · rcases moved.gone _ gone with left | ⟨move, moves, eq⟩
          · exact .inl (left.trans fun _ mem => .of_mem (member mem))
          · exact .inr ⟨move, List.mem_append_right _ moves, eq⟩
  case places =>
    rw [List.flatMap_cons, emittedPlaces, List.mem_append, List.mem_cons, classPlaces, decorators,
      List.mem_append] at mem
    rcases mem with (rfl | stays | left) | made
    · exact .of_mem (List.mem_cons_self ..)
    · obtain ⟨d, mem, rfl⟩ := List.mem_map.mp stays
      exact .of_mem ((mem_statementPlaces cls).mpr
        (.inr (List.mem_append_left _ (List.mem_map_of_mem (List.mem_filter.mp mem).1))))
    · refine (moved.new a left).trans fun b mem => .of_mem ((mem_statementPlaces cls).mpr (.inr ?_))
      exact List.mem_append_right _ (mem_starts_iff.mpr mem)
    · exact .inl (mem_places_assigned assigns made)

/-- The comments of a statement follow it. -/
theorem follows_of_contributes {piece : List Stmt} (h : Contributes source options statement piece) :
    Follows source statement piece (statementMoves source statement) := by
  obtain ⟨other, rfl⟩ | ⟨c, named, decl, s, lowered, assigned, accepted, cls, lowers, assigns, rfl⟩ :=
    contributes_cases h
  · exact follows_unchanged other
  · exact follows_component named cls (readClass_of_component? accepted cls) lowers assigns

/-! ### Dropped imports -/

/-- Whether a statement is an import that is dropped as a whole where some names are in use. -/
def isDroppedImport (corePath : String) (inUse : List String) : Stmt → Bool
  | .importDecl d => (pruneImport corePath inUse d).1.isNone
  | _ => false

theorem statementPlaces_prune (corePath : String) (inUse : List String) (s : Stmt) :
    (pruneStatement corePath inUse s).1.flatMap statementPlaces =
      if isDroppedImport corePath inUse s then [] else statementPlaces s := by
  cases s with
  | importDecl d =>
      show ((pruneImport corePath inUse d).1.toList.map Stmt.importDecl).flatMap statementPlaces = _
      split
      · rename_i gone
        rw [Option.isNone_iff_eq_none.mp gone]
        rfl
      · rename_i stays
        obtain ⟨k, kept⟩ := Option.ne_none_iff_exists'.mp (mt Option.isNone_iff_eq_none.mpr stays)
        rw [kept, pruneImport_eq_some kept]
        rfl
  | _ => exact List.flatMap_singleton _ _

/-- Pruning takes the places of dropped imports away, and no others. -/
theorem mem_places_pruneImports {body : List Stmt} {a : Nat} :
    a ∈ (pruneImports corePath body).1.flatMap statementPlaces ↔
      ∃ s ∈ body, isDroppedImport corePath (decoratorsInUse body) s = false ∧ a ∈ statementPlaces s := by
  unfold pruneImports
  dsimp only
  rw [List.flatMap_map, List.flatMap_assoc, List.mem_flatMap]
  simp only [statementPlaces_prune]
  refine exists_congr fun s => and_congr_right fun _ => ?_
  cases isDroppedImport corePath (decoratorsInUse body) s <;> simp

/-- A piece is dropped exactly if its statement is. -/
theorem isDroppedImport_contributes {inUse : List String} {piece : List Stmt}
    (h : Contributes source options statement piece) :
    ∀ x ∈ piece, isDroppedImport corePath inUse x = isDroppedImport corePath inUse statement := by
  have noImport {x : Stmt} (other : importDecl? x = none) :
      isDroppedImport corePath inUse x = false := by
    cases x <;> first | rfl | cases other
  intro x mem
  obtain ⟨-, rfl⟩ | ⟨c, named, decl, s, lowered, assigned, -, cls, -, assigns, rfl⟩ :=
    contributes_cases h
  · rw [List.mem_singleton.mp mem]
  · have ofClass : isDroppedImport corePath inUse statement = false :=
      noImport (by cases statement <;> first | rfl | cases cls)
    rw [ofClass]
    rcases List.mem_cons.mp mem with rfl | mem
    · exact noImport (importDecl?_emitted named (class?_withClass _ cls))
    · obtain ⟨value, rfl⟩ := assigns.eq_expression mem
      rfl

/-! ### Comments of a lowered module -/

/-- Whether a comment is kept at the top of a module: it ends in front of the first token, and there is
neither an interpreter line nor a directive. -/
def isPinned (m : Module) (c : Comment) : Bool :=
  m.hashbang.isNone && m.directives.isEmpty &&
    (m.body.head?.any fun first => c.span.stop ≤ leadingOffset first)

/-- A comment of a lowered module. -/
def anchored (m : Module) (moves : List CommentMove) (c : Comment) : Comment :=
  if isPinned m c then { relocate moves c with anchor := 0 } else relocate moves c

/-- A comment moves with the first move that starts at its anchor, or stays if there is none. -/
theorem relocate_cases (moves : List CommentMove) (c : Comment) :
    (∃ move ∈ moves, move.source = c.anchor ∧ relocate moves c = { c with anchor := move.target }) ∨
      (∀ move ∈ moves, move.source ≠ c.anchor) ∧ relocate moves c = c := by
  unfold relocate
  cases found : moves.find? (·.source == c.anchor) with
  | some move =>
      exact .inl ⟨move, List.mem_of_find?_eq_some found, by simpa using List.find?_some found, rfl⟩
  | none => exact .inr ⟨by simpa using found, rfl⟩

theorem relocate_span (moves : List CommentMove) (c : Comment) : (relocate moves c).span = c.span := by
  obtain ⟨move, -, -, eq⟩ | ⟨-, eq⟩ := relocate_cases moves c <;> rw [eq]

theorem anchoredComments_eq (m : Module) (moves : List CommentMove) :
    anchoredComments m moves = { m with comments := m.comments.map (anchored m moves) } := by
  have unpinned (none : ∀ c, isPinned m c = false) :
      m.comments.map (anchored m moves) = relocateAll moves m.comments :=
    List.map_congr_left fun c _ => by rw [anchored, none c]; rfl
  obtain ⟨source, dialect, hashbang, directives, body, comments, stop⟩ := m
  cases body with
  | nil =>
      rw [unpinned fun c => by simp [isPinned]]
      rfl
  | cons first rest =>
      cases hashbang with
      | some line =>
          rw [unpinned fun c => rfl]
          rfl
      | none =>
          cases directives with
          | cons d more =>
              rw [unpinned fun c => rfl]
              rfl
          | nil =>
              have pinned (c : Comment) : pin (leadingOffset first) (relocate moves c) =
                  anchored ⟨source, dialect, none, [], first :: rest, comments, stop⟩ moves c := by
                unfold anchored isPinned pin
                simp [relocate_span]
              show (⟨source, dialect, none, [], first :: rest,
                (comments.map (relocate moves)).map (pin (leadingOffset first)), stop⟩ : Module) = _
              rw [List.map_map]
              simp only [Function.comp_def, pinned]

/-! ### Places of a lowered module -/

variable {m out : Module} {report : LoweringReport} {log log' : Log}

theorem statementPlaces_coreBinding (convention : Convention) (functions : List CoreFunction) :
    statementPlaces (coreBinding convention corePath functions) = [0] := by
  cases convention <;> rfl

theorem statementPlaces_sheetImport (convention : Convention) (name path : String) :
    statementPlaces (sheetImport convention name path) = [0] := by
  cases convention <;> rfl

theorem mem_of_forall₂_zip {α β : Type} {R : α → β → Prop} {as : List α} {bs : List β}
    (h : List.Forall₂ R as bs) :
    (∀ a ∈ as, ∃ b, (a, b) ∈ as.zip bs) ∧ ∀ b ∈ bs, ∃ a, (a, b) ∈ as.zip bs := by
  have firsts := List.map_fst_zip (le_of_eq h.length_eq)
  have seconds := List.map_snd_zip (le_of_eq h.length_eq.symm)
  constructor
  · intro a mem
    rw [← firsts] at mem
    obtain ⟨⟨_, b⟩, pair, rfl⟩ := List.mem_map.mp mem
    exact ⟨b, pair⟩
  · intro b mem
    rw [← seconds] at mem
    obtain ⟨⟨a, _⟩, pair, rfl⟩ := List.mem_map.mp mem
    exact ⟨a, pair⟩

/-- The places of a lowered module are those of its directives, and those of the pieces of the
statements that are not dropped. -/
theorem isAmong_places_lowerModule (h : Gives (lowerModule options m) (report, out))
    (nonempty : report.components ≠ []) :
    ∃ pieces, List.Forall₂ (Contributes m.source options) m.body pieces ∧
      ∀ a, IsAmong (places out) a ↔
        IsAmong (m.directives.map (·.span.start)) a ∨
          ∃ p ∈ m.body.zip pieces,
            isDroppedImport options.corePath (namesInUse options m) p.1 = false ∧
              a ∈ p.2.flatMap statementPlaces := by
  obtain ⟨lowered, pieces, -, contribute, -, body⟩ := lowerModule_body h nonempty
  refine ⟨pieces, contribute, fun a => ?_⟩
  have directives : out.directives = m.directives := by
    rw [lowerModule_frame h nonempty, anchoredComments_eq]
  have inUse (s : Stmt) : isDroppedImport options.corePath (decoratorsInUse pieces.flatten) s =
      isDroppedImport options.corePath (namesInUse options m) s := by
    cases s with
    | importDecl d =>
        exact congrArg Option.isNone (pruneImport_congr fun _ s _ => isStale_congr fun _ =>
          mem_decoratorsInUse_iff contribute)
    | _ => rfl
  have made : a ∈ out.body.flatMap statementPlaces ↔
      a = 0 ∨ a ∈ (pruneImports options.corePath pieces.flatten).1.flatMap statementPlaces := by
    rw [body, mem_flatMap_withImports, List.flatMap_singleton, statementPlaces_coreBinding,
      List.flatMap_map]
    simp only [statementPlaces_sheetImport, List.mem_singleton, List.mem_flatMap]
    constructor
    · rintro (top | ⟨_, _, top⟩ | there)
      · exact .inl top
      · exact .inl top
      · exact .inr there
    · rintro (top | there)
      · exact .inl top
      · exact .inr (.inr there)
  rw [IsAmong, IsAmong, places, directives, List.mem_append, made, mem_places_pruneImports]
  constructor
  · rintro (top | directive | top | ⟨x, mem, stays, place⟩)
    · exact .inl (.inl top)
    · exact .inl (.inr directive)
    · exact .inl (.inl top)
    · obtain ⟨piece, there, mem⟩ := List.mem_flatten.mp mem
      obtain ⟨s, pair⟩ := (mem_of_forall₂_zip contribute).2 piece there
      refine .inr ⟨(s, piece), pair, ?_, List.mem_flatMap.mpr ⟨x, mem, place⟩⟩
      rw [← isDroppedImport_contributes (List.forall₂_zip contribute pair) x mem, ← inUse, stays]
  · rintro ((top | directive) | ⟨⟨s, piece⟩, pair, stays, place⟩)
    · exact .inl top
    · exact .inr (.inl directive)
    · obtain ⟨x, mem, place⟩ := List.mem_flatMap.mp place
      have there := (List.of_mem_zip pair).2
      refine .inr (.inr (.inr ⟨x, List.mem_flatten.mpr ⟨piece, there, mem⟩, ?_, place⟩))
      rw [inUse, isDroppedImport_contributes (List.forall₂_zip contribute pair) x mem, stays]

/-! ### Comments that are lost -/

/-- Whether a comment stands in front of an import that is dropped as a whole, and not at the top. -/
def IsLost (options : Options) (m : Module) (c : Comment) : Prop :=
  c.anchor ≠ 0 ∧ isPinned m c = false ∧
    ∃ s ∈ m.body, isDroppedImport options.corePath (namesInUse options m) s = true ∧
      c.anchor = s.span.start

/-- Whether different statements of a module have different places, and other ones than its
directives. -/
structure IsApart (m : Module) : Prop where
  statements : m.body.Pairwise fun s t => (statementPlaces s).Disjoint (statementPlaces t)
  directives : ∀ s ∈ m.body, (statementPlaces s).Disjoint (m.directives.map (·.span.start))

/-- What becomes of a comment when a module is lowered. -/
structure Anchors (options : Options) (m out : Module) (c c' : Comment) : Prop where
  /-- Only the anchor of the comment changes. -/
  rest : c' = { c with anchor := c'.anchor }
  /-- If it was a leading comment and is not lost, it is anchored at the top or at a place. -/
  survives : IsLeading m c.anchor → ¬ IsLost options m c → IsAmong (places out) c'.anchor
  /-- If it is lost, it is anchored at no place. -/
  lost : IsApart m → IsLost options m c → ¬ IsAmong (places out) c'.anchor

theorem isSome_of_mem_statementMoves {move : CommentMove} (h : move ∈ statementMoves source statement) :
    (component? source statement).isSome = true := by
  cases accepted : component? source statement with
  | none =>
      rw [statementMoves_of_other accepted] at h
      cases h
  | some c => rfl

/-- A component is no import. -/
theorem isDroppedImport_of_component {inUse : List String}
    (accepted : (component? source statement).isSome = true) :
    isDroppedImport corePath inUse statement = false := by
  cases statement with
  | importDecl d => cases accepted
  | _ => rfl

/-- A dropped import has one place, and contributes itself. -/
theorem of_isDroppedImport {inUse : List String} {piece : List Stmt}
    (h : isDroppedImport corePath inUse statement = true)
    (contributes : Contributes source options statement piece) :
    statementPlaces statement = [statement.span.start] ∧ piece = [statement] := by
  cases statement with
  | importDecl d =>
      obtain ⟨-, eq⟩ | ⟨c, _, _, _, _, _, accepted, -⟩ := contributes_cases contributes
      · exact ⟨rfl, eq⟩
      · cases accepted
  | _ => cases h

/-- Each comment of a lowered module is one of the module, anchored anew. -/
theorem anchors_lowerModule (h : Gives (lowerModule options m) (report, out))
    (nonempty : report.components ≠ []) :
    out.comments = m.comments.map (anchored m (bodyMoves m.source m.body)) ∧
      ∀ c, Anchors options m out c (anchored m (bodyMoves m.source m.body) c) := by
  obtain ⟨pieces, contribute, amongPlaces⟩ := isAmong_places_lowerModule h nonempty
  constructor
  · rw [lowerModule_frame h nonempty, anchoredComments_eq]
  intro c
  have follows {s : Stmt} {piece : List Stmt} (pair : (s, piece) ∈ m.body.zip pieces) :=
    follows_of_contributes (List.forall₂_zip contribute pair)
  -- What is among the places of a piece that is not dropped is among those of the lowered module.
  have there {s : Stmt} {piece : List Stmt} (pair : (s, piece) ∈ m.body.zip pieces)
      (stays : isDroppedImport options.corePath (namesInUse options m) s = false) {a : Nat}
      (place : IsAmong (piece.flatMap statementPlaces) a) : IsAmong (places out) a :=
    place.trans fun b mem => (amongPlaces b).mpr (.inr ⟨(s, piece), pair, stays, mem⟩)
  constructor
  case rest =>
    unfold anchored
    obtain ⟨move, -, -, eq⟩ | ⟨-, eq⟩ := relocate_cases (bodyMoves m.source m.body) c <;>
      rw [eq] <;> split <;> rfl
  case survives =>
    intro leading kept
    unfold anchored
    split
    · exact .inl rfl
    rename_i unpinned
    obtain ⟨move, mem, -, eq⟩ | ⟨stays, eq⟩ := relocate_cases (bodyMoves m.source m.body) c
    · rw [eq]
      obtain ⟨s, inBody, mem⟩ := List.mem_flatMap.mp mem
      obtain ⟨piece, pair⟩ := (mem_of_forall₂_zip contribute).1 s inBody
      exact there pair (isDroppedImport_of_component (isSome_of_mem_statementMoves mem))
        ((follows pair).targets move mem)
    · rw [eq]
      generalize anchor : c.anchor = a at leading stays ⊢
      cases leading with
      | directive mem => exact (amongPlaces _).mpr (.inl (.of_mem (List.mem_map_of_mem mem)))
      | @statement s _ inBody leads =>
          obtain ⟨piece, pair⟩ := (mem_of_forall₂_zip contribute).1 s inBody
          obtain place | ⟨move, mem, same⟩ := (follows pair).leading a leads
          · cases dropped : isDroppedImport options.corePath (namesInUse options m) s with
            | false => exact there pair dropped place
            | true =>
                obtain ⟨onePlace, rfl⟩ := of_isDroppedImport dropped (List.forall₂_zip contribute pair)
                rw [List.flatMap_singleton, onePlace] at place
                rcases place with top | place
                · exact .inl top
                · by_contra gone
                  exact kept ⟨fun top => gone (.inl (anchor ▸ top)), by simpa using unpinned, s, inBody,
                    dropped, anchor.trans (List.mem_singleton.mp place)⟩
          · exact absurd same (stays move (List.mem_flatMap.mpr ⟨s, inBody, mem⟩))
  case lost =>
    rintro apart ⟨notTop, unpinned, s, inBody, dropped, same⟩
    have others {t : Stmt} (mem : t ∈ m.body)
        (stays : isDroppedImport options.corePath (namesInUse options m) t = false)
        (place : c.anchor ∈ statementPlaces t) : False := by
      have differ : s ≠ t := by
        rintro rfl
        rw [dropped] at stays
        cases stays
      have symmetric : Std.Symm fun s t => (statementPlaces s).Disjoint (statementPlaces t) :=
        ⟨fun _ _ h _ second first => h first second⟩
      exact apart.statements.forall inBody mem differ (same ▸ List.mem_cons_self ..) place
    unfold anchored
    rw [unpinned, if_neg Bool.false_ne_true]
    obtain ⟨move, mem, source, -⟩ | ⟨-, eq⟩ := relocate_cases (bodyMoves m.source m.body) c
    · obtain ⟨t, inBody', mem⟩ := List.mem_flatMap.mp mem
      obtain ⟨piece, pair⟩ := (mem_of_forall₂_zip contribute).1 t inBody'
      exact (others inBody' (isDroppedImport_of_component (isSome_of_mem_statementMoves mem))
        (source ▸ (follows pair).sources move mem)).elim
    · rw [eq, amongPlaces]
      rintro ((top | directive) | ⟨⟨t, piece⟩, pair, stays, place⟩)
      · exact notTop top
      · exact apart.directives s inBody (same ▸ List.mem_cons_self ..) directive
      · rcases (follows pair).places _ place with top | place
        · exact notTop top
        · exact others (List.of_mem_zip pair).1 stays place

/-- The comments of a lowered module.  They are those of the module in their order, and a leading comment
is anchored at the top, or at a directive, a statement, a decorator or a member that is there, unless it
stood in front of an import that is dropped as a whole and not at the top.  Such a comment is anchored at
no place, if the statements of the module stand apart. -/
theorem lowerModule_anchors (run : (lowerModule options m).run.run log = (.ok (report, out), log'))
    (nonempty : report.components ≠ []) :
    List.Forall₂ (Anchors options m out) m.comments out.comments := by
  obtain ⟨comments, anchors⟩ := anchors_lowerModule ⟨log, log', run⟩ nonempty
  rw [comments, List.forall₂_map_right_iff, List.forall₂_same]
  exact fun c _ => anchors c

/-! ### A comment in front of an import -/

/-- A module with a comment in front of an import that is dropped, behind another statement. -/
def remarked : String :=
  "const x = 1;\n// keep me\nimport \x7b Component \x7d from '@stencil/core';\n" ++
    "@Component(\x7b tag: 'a-a' \x7d)\nclass A \x7b\x7d\n"

/-- Whether a module with components is lowered, and the anchor of a comment that leads a statement ends
at no place. -/
def losesComment (options : Options) (m : Module) : Bool :=
  match (lowerModule options m).run.run [] with
  | (.ok (report, out), _) =>
    !report.components.isEmpty && (m.comments.zip out.comments).any fun p =>
      (m.body.map leadingOffset).contains p.1.anchor && p.2.anchor != 0 &&
        !(places out).contains p.2.anchor
  | _ => false

theorem of_losesComment (h : losesComment options m = true) :
    ∃ report out log, (lowerModule options m).run.run [] = (.ok (report, out), log) ∧
      report.components ≠ [] ∧ ∃ p ∈ m.comments.zip out.comments,
        IsLeading m p.1.anchor ∧ ¬ IsAmong (places out) p.2.anchor := by
  unfold losesComment at h
  split at h
  · rename_i report out log run
    simp only [Bool.and_eq_true, Bool.not_eq_true', List.isEmpty_eq_false_iff, List.any_eq_true,
      List.contains_eq_mem, decide_eq_true_eq, decide_eq_false_iff_not, bne_iff_ne] at h
    obtain ⟨nonempty, p, mem, ⟨leads, notTop⟩, nowhere⟩ := h
    obtain ⟨s, inBody, eq⟩ := List.mem_map.mp leads
    refine ⟨report, out, log, run, nonempty, p, mem, ?_, fun among => among.elim notTop nowhere⟩
    rw [← eq]
    exact .statement inBody .token
  · cases h

theorem remarked_read :
    ∃ m, Module.read (.ofPath "a.ts") remarked.toList = .ok m ∧ losesComment defaults m = true :=
  exists_of_read (by decide +kernel)

/-- A leading comment is anchored at no place of the lowered module. -/
theorem remarked_losesComment :
    ∃ m report out log, Module.read (.ofPath "a.ts") remarked.toList = .ok m ∧
      (lowerModule defaults m).run.run [] = (.ok (report, out), log) ∧ report.components ≠ [] ∧
      ∃ p ∈ m.comments.zip out.comments,
        IsLeading m p.1.anchor ∧ ¬ IsAmong (places out) p.2.anchor := by
  obtain ⟨m, read, loses⟩ := remarked_read
  obtain ⟨report, out, log, run, nonempty, rest⟩ := of_losesComment loses
  exact ⟨m, report, out, log, read, run, nonempty, rest⟩

/-- The module has a component and is lowered, so it is known what becomes of its comments. -/
theorem remarked_anchors :
    ∃ m report out log, Module.read (.ofPath "a.ts") remarked.toList = .ok m ∧
      (lowerModule defaults m).run.run [] = (.ok (report, out), log) ∧ report.components ≠ [] ∧
      List.Forall₂ (Anchors defaults m out) m.comments out.comments := by
  obtain ⟨m, read, loses⟩ := remarked_read
  obtain ⟨report, out, log, run, nonempty, -⟩ := of_losesComment loses
  exact ⟨m, report, out, log, read, run, nonempty, lowerModule_anchors run nonempty⟩

end ComponentLowering.Lowering
