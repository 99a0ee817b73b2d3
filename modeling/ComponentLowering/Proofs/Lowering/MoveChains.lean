/-
# Moves without chains

Comments move once: relocation looks for one move that starts at the anchor of a comment and does not follow
it further.  That is enough, since no comments move to where other comments move away from, and from no
place comments move to two places.  This takes that a module is in the order of the text, as modules that
are read are; of two classes that were put into each other nothing is claimed.
-/
import ComponentLowering.Proofs.Lowering.CommentPlaces
import ComponentLowering.Proofs.Lowering.FieldMoves

namespace ComponentLowering.Lowering

open ComponentLowering.Component ComponentLowering.Report ComponentLowering.Settings
open ComponentLowering.Syntax

variable {source : List Char} {options : Options} {moves more other : List CommentMove}
  {statement : Stmt} {decl : ClassDef} {c : Component}

/-! ### Relocation along moves without chains -/

/-- Whether comments move from each place at most once, and from no place that comments move to. -/
structure IsUnchained (moves : List CommentMove) : Prop where
  sources : (moves.map (·.source)).Nodup
  targets : ∀ move ∈ moves, ∀ next ∈ moves, move.target ≠ next.source

theorem isUnchained_nil : IsUnchained [] := ⟨List.nodup_nil, fun _ mem => absurd mem List.not_mem_nil⟩

/-- A comment goes with the move that starts at its anchor, whichever that is. -/
theorem IsUnchained.relocate_of_mem (h : IsUnchained moves) {move : CommentMove} (mem : move ∈ moves)
    {comment : Comment} (here : move.source = comment.anchor) :
    relocate moves comment = { comment with anchor := move.target } := by
  obtain ⟨first, mem', here', eq⟩ | ⟨none, -⟩ := relocate_cases moves comment
  · obtain rfl := List.inj_on_of_nodup_map h.sources mem' mem (here'.trans here.symm)
    exact eq
  · exact absurd here (none move mem)

/-- The order of the moves does not matter. -/
theorem IsUnchained.relocate_perm (h : IsUnchained moves) (perm : moves.Perm other)
    (comment : Comment) : relocate other comment = relocate moves comment := by
  obtain ⟨move, mem, here, eq⟩ | ⟨none, eq⟩ := relocate_cases other comment
  · rw [eq, h.relocate_of_mem (perm.mem_iff.mpr mem) here]
  · obtain ⟨move, mem, here, -⟩ | ⟨-, eq'⟩ := relocate_cases moves comment
    · exact absurd here (none move (perm.mem_iff.mp mem))
    · rw [eq, eq']

/-- Comments that have moved stay. -/
theorem IsUnchained.relocate_relocate (h : IsUnchained moves) (comment : Comment) :
    relocate moves (relocate moves comment) = relocate moves comment := by
  obtain ⟨move, mem, -, eq⟩ | ⟨-, eq⟩ := relocate_cases moves comment
  · obtain ⟨next, mem', here, -⟩ | ⟨-, stays⟩ := relocate_cases moves (relocate moves comment)
    · rw [eq] at here
      exact absurd here.symm (h.targets move mem next mem')
    · exact stays
  · rw [eq, eq]

theorem IsUnchained.append (h : IsUnchained moves) (h' : IsUnchained more)
    (apart : ∀ move ∈ moves, ∀ next ∈ more,
      move.source ≠ next.source ∧ move.target ≠ next.source ∧ next.target ≠ move.source) :
    IsUnchained (moves ++ more) where
  sources := by
    rw [List.map_append]
    refine List.nodup_append.mpr ⟨h.sources, h'.sources, fun a first b second => ?_⟩
    obtain ⟨move, mem, rfl⟩ := List.mem_map.mp first
    obtain ⟨next, mem', rfl⟩ := List.mem_map.mp second
    exact (apart move mem next mem').1
  targets := fun move mem next mem' => by
    rcases List.mem_append.mp mem with first | second <;>
      rcases List.mem_append.mp mem' with first' | second'
    · exact h.targets move first next first'
    · exact (apart move first next second').2.1
    · exact (apart next first' move second).2.2
    · exact h'.targets move second next second'

/-- Moves that start and end among some places. -/
def StaysAmong (places : List Nat) (moves : List CommentMove) : Prop :=
  ∀ move ∈ moves, move.source ∈ places ∧ move.target ∈ places

/-! ### Fields -/

variable {places offsets : List Nat} {resort : Nat}

/-- The moves of the comments at some offsets have no chains, if the last resort is a place at which comments
stay. -/
theorem isUnchained_movesTo (sorted : offsets.Pairwise (· < ·))
    (apart : ∀ a ∈ offsets, a ∉ places) (is : IsResort places offsets resort) :
    IsUnchained (movesTo places resort offsets) where
  sources := by
    have sublist : ((movesTo places resort offsets).map (·.source)).Sublist offsets := by
      unfold movesTo
      clear sorted apart is
      induction offsets with
      | nil => exact List.Sublist.refl _
      | cons offset rest ih =>
          rw [List.flatMap_cons, List.map_append]
          unfold moveTo
          split
          · exact ih.cons offset
          · exact ih.cons_cons offset
    exact (sorted.imp fun less => less.ne : offsets.Nodup).sublist sublist
  targets := fun move mem next mem' same => by
    obtain ⟨from', target, -⟩ := mem_movesTo.mp mem
    obtain ⟨from'', target', differ⟩ := mem_movesTo.mp mem'
    rw [target] at same
    obtain ⟨place, -⟩ | ⟨resort', last⟩ := destination_cases places resort move.source
    · exact apart _ from'' (same ▸ place)
    · rw [resort'] at same
      cases is with
      | place mem => exact apart _ from'' (same ▸ mem)
      | orphan mem last =>
          -- Behind the last resort there is no place, so its own comments stay.
          obtain ⟨place, behind⟩ | ⟨stays, -⟩ := destination_cases places resort next.source
          · exact absurd (last _ place) (by omega)
          · exact differ (by rw [target', stays, same])
      | unneeded next =>
          obtain ⟨a, place, behind⟩ := next _ from'
          exact absurd (last a place) (by omega)

theorem staysAmong_movesTo (is : IsResort places offsets resort) :
    StaysAmong (places ++ offsets) (movesTo places resort offsets) := by
  intro move mem
  obtain ⟨source, target, -⟩ := mem_movesTo.mp mem
  refine ⟨List.mem_append_right _ source, ?_⟩
  obtain ⟨place, -⟩ | ⟨resort', last⟩ := destination_cases places resort move.source
  · exact target ▸ List.mem_append_left _ place
  · rw [target, resort']
    cases is with
    | place mem => exact List.mem_append_left _ mem
    | orphan mem last => exact List.mem_append_right _ mem
    | unneeded next =>
        obtain ⟨a, place, behind⟩ := next _ source
        exact absurd (last a place) (by omega)

/-! ### Statements -/

/-- Whether a class statement is in the order of the text: the members behind the start of the statement and
the decorators. -/
structure IsOrdered (statement : Stmt) (decl : ClassDef) : Prop where
  members : (starts decl.members).Pairwise (· < ·)
  start : ∀ a ∈ starts decl.members, statement.span.start < a
  decorators : ∀ a ∈ starts decl.members, ∀ d ∈ decl.decorators, d.span.start < a

instance (statement : Stmt) (decl : ClassDef) : Decidable (IsOrdered statement decl) :=
  decidable_of_iff
    ((starts decl.members).Pairwise (· < ·) ∧ (∀ a ∈ starts decl.members, statement.span.start < a) ∧
      ∀ a ∈ starts decl.members, ∀ d ∈ decl.decorators, d.span.start < a)
    ⟨fun ⟨members, start, decorators⟩ => ⟨members, start, decorators⟩,
      fun ⟨members, start, decorators⟩ => ⟨members, start, decorators⟩⟩

theorem IsOrdered.hasMembersInOrder (h : IsOrdered statement decl) : HasMembersInOrder decl where
  sorted := h.members
  placed := fun a mem => by have := h.start a mem; omega

theorem isUnchained_moveTo (source target : Nat) : IsUnchained (moveTo source target) := by
  unfold moveTo
  split
  · exact isUnchained_nil
  · rename_i differ
    refine ⟨List.nodup_singleton _, fun move mem next mem' => ?_⟩
    rw [List.mem_singleton.mp mem, List.mem_singleton.mp mem']
    exact fun same => differ (beq_iff_eq.mpr same.symm)

theorem isUnchained_decoratorMoves (statement : Stmt) : IsUnchained (decoratorMoves statement) := by
  unfold decoratorMoves
  cases componentOffset? statement with
  | none => exact isUnchained_nil
  | some a => exact isUnchained_moveTo a _

/-- The component decorator that the comments move away from is one of the class. -/
theorem exists_decorator {move : CommentMove} (cls : class? statement = some decl)
    (mem : move ∈ decoratorMoves statement) :
    ∃ d ∈ decl.decorators, isComponentDecorator d = true ∧ move.source = d.span.start ∧
      move.target = statement.span.start := by
  obtain ⟨offset, target⟩ := mem_decoratorMoves mem
  rw [componentOffset?_eq cls] at offset
  obtain ⟨d, found, eq⟩ := Option.map_eq_some_iff.mp offset
  exact ⟨d, List.mem_of_find?_eq_some found, List.find?_some found, eq.symm, target⟩

/-- The moves inside of a class in order have no chains, and stay among its members. -/
theorem isUnchained_classMoves (ordered : HasMembersInOrder decl) (c : Component) :
    IsUnchained (classMoves decl c) ∧ StaysAmong (starts decl.members) (classMoves decl c) := by
  cases lowers : lowerClass decl c {} with
  | error failure =>
      have none : classMoves decl c = [] := by
        unfold classMoves
        simp only [lowers]
      rw [none]
      exact ⟨isUnchained_nil, fun _ mem => absurd mem List.not_mem_nil⟩
  | ok lowered =>
      obtain ⟨constructor, fields⟩ := movesFields_lowerClass ordered lowers
      obtain ⟨-, sorted, apart⟩ := ordered.apart c
      rw [fields.moves]
      refine ⟨isUnchained_movesTo sorted apart fields.resort, fun move mem => ?_⟩
      obtain ⟨source, target⟩ := staysAmong_movesTo fields.resort move mem
      exact ⟨mem_starts_iff.mpr source, mem_starts_iff.mpr target⟩

theorem exists_class_of_component? (accepted : component? source statement = some c) :
    ∃ decl, class? statement = some decl := by
  cases cls : class? statement with
  | none => simp [component?, cls] at accepted
  | some decl => exact ⟨decl, rfl⟩

/-- The moves of a class statement in order have no chains, and stay among its places. -/
theorem isUnchained_statementMoves (source : List Char)
    (ordered : ∀ decl, class? statement = some decl → IsOrdered statement decl) :
    IsUnchained (statementMoves source statement) ∧
      StaysAmong (statementPlaces statement) (statementMoves source statement) := by
  cases accepted : component? source statement with
  | none =>
      rw [statementMoves_of_other accepted]
      exact ⟨isUnchained_nil, fun _ mem => absurd mem List.not_mem_nil⟩
  | some c =>
      obtain ⟨decl, cls⟩ := exists_class_of_component? accepted
      have inOrder := ordered decl cls
      obtain ⟨unchained, stays⟩ := isUnchained_classMoves inOrder.hasMembersInOrder c
      rw [statementMoves_of_component cls (readClass_of_component? accepted cls)]
      constructor
      · refine (isUnchained_decoratorMoves statement).append unchained fun move mem next mem' => ?_
        obtain ⟨d, inClass, -, source, target⟩ := exists_decorator cls mem
        obtain ⟨source', target'⟩ := stays next mem'
        rw [source, target]
        exact ⟨(inOrder.decorators _ source' d inClass).ne, (inOrder.start _ source').ne,
          (inOrder.decorators _ target' d inClass).ne'⟩
      · intro move mem
        rw [mem_statementPlaces cls, mem_statementPlaces cls]
        rcases List.mem_append.mp mem with here | inside
        · obtain ⟨d, inClass, -, source, target⟩ := exists_decorator cls here
          rw [source]
          exact ⟨.inr (List.mem_append_left _ (List.mem_map_of_mem inClass)), .inl target⟩
        · obtain ⟨source, target⟩ := stays move inside
          exact ⟨.inr (List.mem_append_right _ source), .inr (List.mem_append_right _ target)⟩

/-! ### Modules in order -/

variable {m out : Module} {report : LoweringReport} {log log' : Log}

/-- Whether a module is in the order of the text: what starts in a statement starts in front of what starts
in a later one, and its classes are in order. -/
structure IsInOrder (m : Module) : Prop where
  statements : m.body.Pairwise fun s t => ∀ a ∈ statementPlaces s, ∀ b ∈ statementPlaces t, a < b
  classes : ∀ s ∈ m.body, ∀ decl, class? s = some decl → IsOrdered s decl

instance (m : Module) : Decidable (IsInOrder m) :=
  decidable_of_iff
    ((m.body.Pairwise fun s t => ∀ a ∈ statementPlaces s, ∀ b ∈ statementPlaces t, a < b) ∧
      ∀ s ∈ m.body, (class? s).all (fun decl => decide (IsOrdered s decl)) = true)
    (by
      simp only [Option.all_eq_true, decide_eq_true_eq]
      exact ⟨fun ⟨statements, classes⟩ => ⟨statements, classes⟩,
        fun ⟨statements, classes⟩ => ⟨statements, classes⟩⟩)

theorem isUnchained_bodyMoves (ordered : IsInOrder m) : IsUnchained (bodyMoves m.source m.body) := by
  obtain ⟨statements, classes⟩ := ordered
  unfold bodyMoves
  generalize m.body = body at statements classes
  induction body with
  | nil => exact isUnchained_nil
  | cons s rest ih =>
      obtain ⟨first, later⟩ := List.pairwise_cons.mp statements
      obtain ⟨unchained, stays⟩ := isUnchained_statementMoves m.source
        (classes s (List.mem_cons_self ..))
      rw [List.flatMap_cons]
      refine unchained.append (ih later fun t mem => classes t (List.mem_cons_of_mem _ mem)) ?_
      intro move mem next mem'
      obtain ⟨t, inRest, mem'⟩ := List.mem_flatMap.mp mem'
      obtain ⟨source, target⟩ := stays move mem
      obtain ⟨source', target'⟩ := (isUnchained_statementMoves m.source
        (classes t (List.mem_cons_of_mem _ inRest))).2 next mem'
      exact ⟨(first t inRest _ source _ source').ne, (first t inRest _ target _ source').ne,
        (first t inRest _ source _ target').ne'⟩

/-- Different statements of a module in order have different places. -/
theorem IsInOrder.eq_of_mem (h : IsInOrder m) {s t : Stmt} {a : Nat} (mem : s ∈ m.body)
    (mem' : t ∈ m.body) (place : a ∈ statementPlaces s) (place' : a ∈ statementPlaces t) : s = t := by
  by_contra differ
  have symmetric : Std.Symm fun s t => (statementPlaces s).Disjoint (statementPlaces t) :=
    ⟨fun _ _ h _ second first => h first second⟩
  have disjoint : m.body.Pairwise fun s t => (statementPlaces s).Disjoint (statementPlaces t) :=
    h.statements.imp fun less a first second => (less a first a second).false
  exact disjoint.forall mem mem' differ place place'

/-- From a place of a statement only the comments of that statement move. -/
theorem IsInOrder.mem_statementMoves (h : IsInOrder m) {s : Stmt} {move : CommentMove}
    (mem : s ∈ m.body) (place : move.source ∈ statementPlaces s)
    (moves : move ∈ bodyMoves m.source m.body) : move ∈ statementMoves m.source s := by
  obtain ⟨t, mem', moves⟩ := List.mem_flatMap.mp moves
  have place' := ((isUnchained_statementMoves m.source (h.classes t mem')).2 move moves).1
  rwa [h.eq_of_mem mem mem' place place']

/-! ### What becomes of a component -/

/-- How a class statement, its class and component, the statement that is emitted for it and the class that
this holds belong together. -/
structure Becomes (source : List Char) (statement new : Stmt) (decl held : ClassDef) (c : Component) :
    Prop where
  declares : class? statement = some decl
  reads : readClass source decl = .component c
  place : new.span = statement.span
  holds : heldClass? new = some held
  lowers : ∃ s lowered, lowerClass decl c s = .ok lowered ∧ held.members = lowered.decl.members ∧
    held.decorators = lowered.decl.decorators

/-- What a component of a module becomes is there. -/
theorem exists_becomes (h : Gives (lowerModule options m) (report, out)) {s : Stmt} {decl : ClassDef}
    (mem : s ∈ m.body) (cls : class? s = some decl) (reads : readClass m.source decl = .component c) :
    ∃ new ∈ out.body, ∃ held, Becomes m.source s new decl held c := by
  have accepted : component? m.source s = some c := by simp [component?, cls, reads]
  have nonempty : report.components ≠ [] := by
    rw [components_lowerModule h]
    exact fun none => List.ne_nil_of_mem (List.mem_filterMap.mpr ⟨s, mem, accepted⟩)
      (List.map_eq_nil_iff.mp none)
  obtain ⟨lowered, pieces, -, contribute, -, body⟩ := lowerModule_body h nonempty
  obtain ⟨piece, pair⟩ := (mem_of_forall₂_zip contribute).1 s mem
  obtain ⟨other, -⟩ | ⟨c', named, decl', state, lowered', assigned, accepted', cls', lowers, -, rfl⟩ :=
    contributes_cases (List.forall₂_zip contribute pair)
  · rw [accepted] at other
    cases other
  · rw [accepted] at accepted'
    cases accepted'
    rw [cls] at cls'
    cases cls'
    have holds := @heldClass?_emitted options s decl lowered'.decl _ named cls
    have content := @sameContent_emittedClass options (withClass lowered'.decl s) lowered'.decl _ named
    have inPieces : emitted options c.className named lowered'.decl (withClass lowered'.decl s) ∈
        pieces.flatten.filter fun s => (heldClass? s).isSome :=
      List.mem_filter.mpr ⟨List.mem_flatten.mpr ⟨_, (List.of_mem_zip pair).2, List.mem_cons_self ..⟩,
        by rw [holds]; rfl⟩
    rw [← filter_pruneImports options.corePath pieces.flatten fun _ => rfl] at inPieces
    refine ⟨_, ?_, _, cls, reads, span_emitted named cls (by rw [(lowerClass_ok lowers).rest]), holds,
      state, lowered', lowers, content.members, content.decorators⟩
    rw [body]
    exact (sublist_withImports _ _ _ _).subset (List.mem_filter.mp inPieces).1

/-- What a move of the comments of a component starts at and where it ends. -/
inductive IsMoveOf (statement new : Stmt) (decl held : ClassDef) (c : Component) (move : CommentMove) :
    Prop
  /-- Comments move from a component decorator, which is erased, to the statement that is emitted. -/
  | decorator {d : Decorator} (mem : d ∈ decl.decorators) (erased : d ∉ held.decorators)
      (component : isComponentDecorator d = true) (source : move.source = d.span.start)
      (target : move.target = new.span.start)
  /-- Comments move from a field that is replaced to a member of the class that is held. -/
  | field {f left : Member} (mem : f ∈ decl.members) (replaced : isLoweredField c f = true)
      (source : move.source = f.span.start) (there : left ∈ held.members)
      (target : move.target = left.span.start)

/-- Where the comments in front of a field that is replaced end. -/
inductive EndsAt (c : Component) (decl held : ClassDef) (offset : Nat) : Nat → Prop
  /-- They end at the nearest member behind it that is left. -/
  | next {m : Member} (mem : m ∈ left c decl) (behind : offset < m.span.start)
      (nearest : ∀ n ∈ left c decl, offset < n.span.start → m.span.start ≤ n.span.start)
      (there : m.span.start ∈ starts held.members) : EndsAt c decl held offset m.span.start
  /-- They end at the constructor if none is left behind it. -/
  | resort {k : Member} (last : ∀ n ∈ left c decl, n.span.start < offset)
      (first : (constructors held.members).head? = some k) : EndsAt c decl held offset k.span.start


section

variable {s new : Stmt} {held : ClassDef}

/-- What the moves of the comments of a component start at and where they end. -/
theorem Becomes.isMoveOf (h : Becomes source s new decl held c) (ordered : IsOrdered s decl)
    {move : CommentMove} (mem : move ∈ statementMoves source s) : IsMoveOf s new decl held c move := by
  obtain ⟨state, lowered, lowers, members, decorators⟩ := h.lowers
  rw [statementMoves_of_component h.declares h.reads] at mem
  rcases List.mem_append.mp mem with here | inside
  · obtain ⟨d, inClass, component, source, target⟩ := exists_decorator h.declares here
    refine .decorator inClass ?_ component source (h.place ▸ target)
    rw [decorators, (lowerClass_ok lowers).decorators, List.mem_filter]
    simp [component]
  · obtain ⟨constructor, fields⟩ := movesFields_lowerClass ordered.hasMembersInOrder lowers
    rw [fields.moves] at inside
    obtain ⟨source, target, -⟩ := mem_movesTo.mp inside
    obtain ⟨f, mem, eq⟩ := List.mem_map.mp source
    obtain ⟨inClass, replaced⟩ := List.mem_filter.mp mem
    have there : move.target ∈ starts held.members := by
      rw [members, target]
      obtain ⟨place, -⟩ | ⟨resort, -⟩ := destination_cases (starts (left c decl))
        constructor.span.start move.source
      · exact fields.stay _ place
      · rw [resort]
        exact List.mem_map_of_mem (List.mem_of_mem_filter (List.mem_of_head? fields.first))
    obtain ⟨left, inHeld, target⟩ := List.mem_map.mp there
    exact .field inClass replaced eq.symm inHeld target.symm

/-- The comments in front of a field that is replaced go to their destination, if they are not there. -/
theorem anchor_relocate (ordered : IsInOrder m) (inBody : s ∈ m.body) (cls : class? s = some decl)
    (reads : readClass m.source decl = .component c) {places offsets : List Nat} {resort offset : Nat}
    (moves : classMoves decl c = movesTo places resort offsets) (mem : offset ∈ offsets)
    (inClass : offset ∈ starts decl.members) {comment : Comment} (here : comment.anchor = offset) :
    (relocate (bodyMoves m.source m.body) comment).anchor = destination places resort offset := by
  have split := statementMoves_of_component cls reads
  have place : offset ∈ statementPlaces s :=
    (mem_statementPlaces cls).mpr (.inr (List.mem_append_right _ inClass))
  subst here
  obtain ⟨move, mem', source, eq⟩ | ⟨none, eq⟩ := relocate_cases (bodyMoves m.source m.body) comment
  · have own := ordered.mem_statementMoves inBody (source ▸ place) mem'
    rw [split] at own
    rcases List.mem_append.mp own with ahead | inside
    · -- The component decorator stands in front of the field.
      obtain ⟨d, decorates, -, start, -⟩ := exists_decorator cls ahead
      have less := (ordered.classes s inBody decl cls).decorators _ inClass d decorates
      rw [← start, source] at less
      exact absurd less (lt_irrefl _)
    · rw [moves] at inside
      rw [eq, (mem_movesTo.mp inside).2.1, source]
  · rw [eq]
    by_contra differ
    have inside : ⟨comment.anchor, destination places resort comment.anchor⟩ ∈ classMoves decl c := by
      rw [moves]
      exact mem_movesTo.mpr ⟨mem, rfl, differ⟩
    exact none _ (List.mem_flatMap.mpr ⟨s, inBody, split ▸ List.mem_append_right _ inside⟩) rfl

/-- Where the comments in front of a field that is replaced end. -/
theorem Becomes.endsAt (h : Becomes m.source s new decl held c) (ordered : IsInOrder m)
    (inBody : s ∈ m.body) {f : Member} (mem : f ∈ decl.members) (replaced : isLoweredField c f = true)
    {comment : Comment} (here : comment.anchor = f.span.start) :
    EndsAt c decl held f.span.start (relocate (bodyMoves m.source m.body) comment).anchor := by
  obtain ⟨state, lowered, lowers, members, -⟩ := h.lowers
  have inOrder := (ordered.classes s inBody decl h.declares).hasMembersInOrder
  obtain ⟨constructor, fields⟩ := movesFields_lowerClass inOrder lowers
  obtain ⟨sorted, -, apart⟩ := inOrder.apart c
  have offset : f.span.start ∈ loweredOffsets c decl.members :=
    List.mem_map_of_mem (List.mem_filter.mpr ⟨mem, replaced⟩)
  rw [anchor_relocate ordered inBody h.declares h.reads fields.moves offset (List.mem_map_of_mem mem) here]
  obtain ⟨place, behind⟩ | ⟨resort, last⟩ := destination_cases (starts (left c decl))
    constructor.span.start f.span.start
  · obtain ⟨n, stays, eq⟩ := List.mem_map.mp place
    rw [← eq] at behind ⊢
    refine .next stays behind (fun n' stays' behind' => ?_) ?_
    · rw [eq]
      exact destination_le sorted (List.mem_map_of_mem stays') behind'
    · rw [members]
      exact fields.stay _ (List.mem_map_of_mem stays)
  · rw [resort]
    refine .resort (fun n stays => ?_) (members ▸ fields.first)
    have place : n.span.start ∈ starts (left c decl) := List.mem_map_of_mem stays
    exact lt_of_le_of_ne (last _ place) fun same => apart _ offset (same ▸ place)

end

/-! ### Modules -/

/-- How the comments of a module move when it is lowered. -/
structure Relocates (m out : Module) (report : LoweringReport) (moves : List CommentMove) : Prop where
  /-- From no place do they move twice, and from none to which they move. -/
  unchained : IsUnchained moves
  /-- The moves lead to the same anchors in every order. -/
  anyOrder : ∀ other, moves.Perm other → ∀ comments, relocateAll other comments = relocateAll moves comments
  /-- Relocating comments once more changes nothing. -/
  once : ∀ comments, relocateAll moves (relocateAll moves comments) = relocateAll moves comments
  /-- Each move belongs to a component and what it becomes. -/
  origins : ∀ move ∈ moves, ∃ s ∈ m.body, ∃ new ∈ out.body, ∃ decl held c,
    Becomes m.source s new decl held c ∧ IsMoveOf s new decl held c move
  /-- Comments in front of a field that is replaced end at a member that is left. -/
  fields : ∀ s ∈ m.body, ∀ decl c, class? s = some decl → readClass m.source decl = .component c →
    ∃ new ∈ out.body, ∃ held, Becomes m.source s new decl held c ∧
      ∀ f ∈ decl.members, isLoweredField c f = true → ∀ comment : Comment,
        comment.anchor = f.span.start →
        EndsAt c decl held f.span.start (relocate moves comment).anchor
  /-- The comments of the lowered module are the relocated ones, apart from those kept at the top. -/
  comments : report.components ≠ [] → out.comments = m.comments.map fun comment =>
    if isPinned m comment then { comment with anchor := 0 } else relocate moves comment

theorem anchored_eq (m : Module) (moves : List CommentMove) (comment : Comment) :
    anchored m moves comment =
      if isPinned m comment then { comment with anchor := 0 } else relocate moves comment := by
  unfold anchored
  obtain ⟨move, -, -, eq⟩ | ⟨-, eq⟩ := relocate_cases moves comment <;> rw [eq]

/-- When a module in order is lowered, the moves that are collected have no chains.  They lead from
decorators that are erased to the statements that are emitted, and from fields that are replaced to the
members nearest to them that are left. -/
theorem lowerModule_relocates (ordered : IsInOrder m)
    (run : (lowerModule options m).run.run log = (.ok (report, out), log')) :
    ∃ lowered, Gives (lowerStatements m.source options m.body (initialState m.body)) lowered ∧
      lowered.report = report ∧ Relocates m out report lowered.state.moves := by
  have gives : Gives (lowerModule options m) (report, out) := ⟨log, log', run⟩
  obtain ⟨lowered, lowers, same, -, -⟩ := lowerModule_ok gives
  have moves := (gives_lowerStatements lowers).2
  rw [initialState_moves, List.nil_append] at moves
  have unchained := isUnchained_bodyMoves ordered
  refine ⟨lowered, lowers, same, ?_⟩
  rw [moves]
  refine ⟨unchained, ?anyOrder, ?once, ?origins, ?fields, ?comments⟩
  case anyOrder => exact fun other perm comments =>
    List.map_congr_left fun comment _ => unchained.relocate_perm perm comment
  case once =>
    intro comments
    unfold relocateAll
    rw [List.map_map]
    exact List.map_congr_left fun comment _ => unchained.relocate_relocate comment
  case origins =>
    intro move mem
    obtain ⟨s, inBody, mem⟩ := List.mem_flatMap.mp mem
    obtain ⟨c, accepted⟩ := Option.isSome_iff_exists.mp (isSome_of_mem_statementMoves mem)
    obtain ⟨decl, cls⟩ := exists_class_of_component? accepted
    obtain ⟨new, there, held, becomes⟩ :=
      exists_becomes gives inBody cls (readClass_of_component? accepted cls)
    exact ⟨s, inBody, new, there, decl, held, c, becomes,
      becomes.isMoveOf (ordered.classes s inBody decl cls) mem⟩
  case fields =>
    intro s inBody decl c cls reads
    obtain ⟨new, there, held, becomes⟩ := exists_becomes gives inBody cls reads
    exact ⟨new, there, held, becomes, fun f mem replaced comment here =>
      becomes.endsAt ordered inBody mem replaced here⟩
  case comments =>
    intro nonempty
    rw [(anchors_lowerModule gives nonempty).1]
    exact List.map_congr_left fun comment _ => anchored_eq m _ comment

/-! ### A class with fields behind its last member -/

/-- A module with a component behind whose only method two fields are replaced.  The class has no
constructor, so the first of the two gives one its place. -/
def trailing : String :=
  "@Component(\x7b tag: 'a-a' \x7d)\nexport class A \x7b\n  // e\n  @Element() e;\n  @Element() f;\n" ++
    "  m() \x7b\x7d\n  // g\n  @Element() g;\n  // h\n  @Element() h;\n\x7d\n"

/-- Whether a module in order with a component is lowered, and comments move from four places. -/
def movesFour (options : Options) (m : Module) : Bool :=
  match (lowerModule options m).run.run [] with
  | (.ok _, _) => decide (IsInOrder m) && (bodyMoves m.source m.body).length == 4
  | _ => false

theorem of_movesFour (h : movesFour options m = true) :
    ∃ report out log, (lowerModule options m).run.run [] = (.ok (report, out), log) ∧ IsInOrder m ∧
      (bodyMoves m.source m.body).length = 4 := by
  unfold movesFour at h
  split at h
  · rename_i result log run
    simp only [Bool.and_eq_true, decide_eq_true_eq, beq_iff_eq] at h
    exact ⟨result.1, result.2, log, run, h⟩
  · cases h

theorem trailing_read :
    ∃ m, Module.read (.ofPath "a.ts") trailing.toList = .ok m ∧ movesFour defaults m = true :=
  exists_of_read (by decide +kernel)

/-- The module is in order, and lowered, so its moves have no chains. -/
theorem trailing_relocates :
    ∃ m report out log lowered, Module.read (.ofPath "a.ts") trailing.toList = .ok m ∧ IsInOrder m ∧
      (lowerModule defaults m).run.run [] = (.ok (report, out), log) ∧
      (bodyMoves m.source m.body).length = 4 ∧
      Gives (lowerStatements m.source defaults m.body (initialState m.body)) lowered ∧
      lowered.report = report ∧ Relocates m out report lowered.state.moves := by
  obtain ⟨m, read, four⟩ := trailing_read
  obtain ⟨report, out, log, run, ordered, length⟩ := of_movesFour four
  obtain ⟨lowered, relocates⟩ := lowerModule_relocates ordered run
  exact ⟨m, report, out, log, lowered, read, ordered, run, length, relocates⟩

end ComponentLowering.Lowering
