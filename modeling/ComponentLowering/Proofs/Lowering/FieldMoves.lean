/-
# Where the comments of fields go

The comments in front of a field that is taken out of a class go to the next member that is left.  Behind
the last member they go to the constructor.  A constructor that is new has no place in the text until the
first field behind all members needs one: it is put where that field was, so the comments of that field stay
where they are, and those of later fields follow.
-/
import ComponentLowering.Proofs.Lowering.MemberLayout
import Mathlib.Data.List.Nodup

namespace ComponentLowering.Lowering

open ComponentLowering.Component ComponentLowering.Syntax

variable {places offsets : List Nat} {resort offset : Nat} {move : CommentMove}
  {members before after : List Member} {span : Span} {body : List Stmt}

/-! ### Destinations -/

/-- Where comments go from an offset: to the first of some places behind it, or else to a last resort. -/
def destination (places : List Nat) (resort offset : Nat) : Nat :=
  (places.find? (offset < ·)).getD resort

/-- The moves of the comments at some offsets to their destinations. -/
def movesTo (places : List Nat) (resort : Nat) (offsets : List Nat) : List CommentMove :=
  offsets.flatMap fun offset => moveTo offset (destination places resort offset)

/-- What the last resort of the comments at some offsets may be: one of the places, the offset of which the
comments have nowhere else to go, or anything if no comments need it. -/
inductive IsResort (places offsets : List Nat) : Nat → Prop
  | place {resort : Nat} (mem : resort ∈ places) : IsResort places offsets resort
  | orphan {resort : Nat} (mem : resort ∈ offsets) (last : ∀ a ∈ places, a ≤ resort) :
      IsResort places offsets resort
  | unneeded {resort : Nat} (next : ∀ offset ∈ offsets, ∃ a ∈ places, offset < a) :
      IsResort places offsets resort

theorem mem_moveTo {source target : Nat} :
    move ∈ moveTo source target ↔ move = { source, target } ∧ source ≠ target := by
  unfold moveTo
  split <;> simp_all

theorem mem_movesTo :
    move ∈ movesTo places resort offsets ↔
      move.source ∈ offsets ∧ move.target = destination places resort move.source ∧
        move.source ≠ move.target := by
  unfold movesTo
  simp only [List.mem_flatMap, mem_moveTo]
  constructor
  · rintro ⟨offset, mem, rfl, differ⟩
    exact ⟨mem, rfl, differ⟩
  · rintro ⟨mem, target, differ⟩
    exact ⟨_, mem, by rw [← target], target ▸ differ⟩

/-- Comments go to a place behind them, or to the last resort if there is none. -/
theorem destination_cases (places : List Nat) (resort offset : Nat) :
    (destination places resort offset ∈ places ∧ offset < destination places resort offset) ∨
      (destination places resort offset = resort ∧ ∀ a ∈ places, a ≤ offset) := by
  unfold destination
  cases found : places.find? (offset < ·) with
  | some a =>
      exact .inl ⟨List.mem_of_find?_eq_some found, by simpa using List.find?_some found⟩
  | none => exact .inr ⟨rfl, by simpa using found⟩

theorem destination_cons_of_lt {a : Nat} (behind : offset < a) :
    destination (a :: places) resort offset = a := by
  unfold destination
  rw [List.find?_cons_of_pos (by simpa using behind)]
  rfl

/-- A place that is not behind an offset does not matter to it. -/
theorem destination_cons_of_le {a : Nat} (ahead : a ≤ offset) :
    destination (a :: places) resort offset = destination places resort offset := by
  unfold destination
  rw [List.find?_cons_of_neg (by simpa using ahead)]

/-- If the places are in order, comments go to the nearest one. -/
theorem destination_le (sorted : places.Pairwise (· < ·)) {a : Nat} (mem : a ∈ places)
    (behind : offset < a) : destination places resort offset ≤ a := by
  induction places with
  | nil => cases mem
  | cons p rest ih =>
      obtain ⟨first, sorted'⟩ := List.pairwise_cons.mp sorted
      by_cases here : offset < p
      · rw [destination_cons_of_lt here]
        rcases List.mem_cons.mp mem with rfl | later
        · exact le_rfl
        · exact (first a later).le
      · rw [destination_cons_of_le (Nat.le_of_not_lt here)]
        rcases List.mem_cons.mp mem with rfl | later
        · exact absurd behind here
        · exact ih sorted' later

theorem destination_starts (members : List Member) (resort offset : Nat) :
    destination (starts members) resort offset =
      ((members.find? fun m => offset < m.span.start).map (·.span.start)).getD resort := by
  unfold destination starts
  rw [List.find?_map]
  rfl

/-! ### A constructor that has its place -/

/-- Around a constructor that has its place nothing changes, and the comments of a field move. -/
theorem fieldMoves_placed (without : ∀ m ∈ before, isConstructor m = false)
    (placed : span.start ≠ 0) (offset : Nat) :
    fieldMoves offset (before ++ hostConstructor span body :: after) =
      (before ++ hostConstructor span body :: after,
        moveTo offset
          (destination (starts (before ++ hostConstructor span body :: after)) span.start offset)) := by
  have index := @constructorIndex?_append before after (hostConstructor span body) without rfl
  have here : (before ++ hostConstructor span body :: after)[before.length]? =
      some (hostConstructor span body) := by simp
  rw [destination_starts]
  unfold fieldMoves moveFieldComments
  cases found : (before ++ hostConstructor span body :: after).find? (offset < ·.span.start) with
  | some next => simp [moveComments_eq]
  | none =>
      simp only [index, here, span_hostConstructor, moveComments_eq, if_neg placed]
      rfl

theorem allFieldMoves_placed (without : ∀ m ∈ before, isConstructor m = false)
    (placed : span.start ≠ 0) (body : List Stmt) (after : List Member) (offsets : List Nat) :
    allFieldMoves offsets (before ++ hostConstructor span body :: after) =
      (before ++ hostConstructor span body :: after,
        movesTo (starts (before ++ hostConstructor span body :: after)) span.start offsets) := by
  induction offsets with
  | nil => rfl
  | cons offset rest ih =>
      unfold allFieldMoves
      simp only [fieldMoves_placed without placed, ih]
      rfl

/-! ### A constructor that is new -/

/-- A constructor without a place is put where a field was that no member follows. -/
theorem fieldMoves_unplaced (offset : Nat) :
    fieldMoves offset (hostConstructor .detached body :: members) =
      match (starts members).find? (offset < ·) with
      | some next => (hostConstructor .detached body :: members, moveTo offset next)
      | none => (hostConstructor (.point offset) body :: members, []) := by
  have ahead : ¬ offset < (hostConstructor .detached body).span.start := Nat.not_lt_zero offset
  unfold fieldMoves moveFieldComments starts
  rw [List.find?_map, List.find?_cons_of_neg (by rwa [decide_eq_true_eq])]
  have same : (members.find? ((fun a => decide (offset < a)) ∘ fun m => m.span.start)) =
      members.find? fun m => decide (offset < m.span.start) := rfl
  rw [same]
  cases found : members.find? fun m => decide (offset < m.span.start) with
  | some next => simp [moveComments_eq]
  | none =>
      have stays : moveTo offset offset = [] := by simp [moveTo]
      simp only [Option.map_none, moveComments_eq, stays]
      rfl

/-- The first field that no member follows gives the constructor its place, and the comments of all fields
move as if it had had that place from the start. -/
theorem allFieldMoves_unplaced (sorted : offsets.Pairwise (· < ·)) (placed : ∀ o ∈ offsets, o ≠ 0)
    (body : List Stmt) (members : List Member) :
    ∃ span, allFieldMoves offsets (hostConstructor .detached body :: members) =
        (hostConstructor span body :: members, movesTo (starts members) span.start offsets) ∧
      IsResort (starts members) offsets span.start := by
  induction offsets with
  | nil => exact ⟨.detached, rfl, .unneeded (by simp)⟩
  | cons offset rest ih =>
      obtain ⟨first, sorted'⟩ := List.pairwise_cons.mp sorted
      unfold allFieldMoves
      rw [fieldMoves_unplaced]
      cases found : (starts members).find? (offset < ·) with
      | some next =>
          obtain ⟨span, eq, is⟩ := ih sorted' fun o mem => placed o (List.mem_cons_of_mem _ mem)
          have behind : offset < next := by simpa using List.find?_some found
          have mem := List.mem_of_find?_eq_some found
          have goes : destination (starts members) span.start offset = next := by
            rw [destination, found]
            rfl
          refine ⟨span, ?_, ?_⟩
          · simp only [eq, movesTo, List.flatMap_cons, goes]
          · cases is with
            | place mem => exact .place mem
            | orphan mem last => exact .orphan (List.mem_cons_of_mem _ mem) last
            | unneeded all => exact .unneeded (List.forall_mem_cons.mpr ⟨⟨next, mem, behind⟩, all⟩)
      | none =>
          have last : ∀ a ∈ starts members, a ≤ offset := by simpa using found
          have here := allFieldMoves_placed (List.forall_mem_nil _)
            (show (Span.point offset).start ≠ 0 from placed offset (List.mem_cons_self ..)) body
            members rest
          -- Later fields are behind the place of the constructor, so they do not see it.
          have same : movesTo (offset :: starts members) offset rest =
              movesTo (starts members) offset rest :=
            List.flatMap_congr fun o mem => by rw [destination_cons_of_le (first o mem).le]
          have stays : moveTo offset (destination (starts members) offset offset) = [] := by
            simp [moveTo, destination, found]
          refine ⟨.point offset, ?_, .orphan (List.mem_cons_self ..) last⟩
          change allFieldMoves rest (hostConstructor (.point offset) body :: members) =
            (_, movesTo (offset :: starts members) offset rest) at here
          rw [same] at here
          change _ = (_, moveTo offset (destination (starts members) offset offset) ++
            movesTo (starts members) offset rest)
          simp only [here, stays, List.nil_append]

/-! ### Classes -/

variable {c : Component} {decl : ClassDef} {s : ModuleState} {lowered : LoweredClass}

/-- Whether the members of a class are in the order of the text, none of them at the top of a module. -/
structure HasMembersInOrder (decl : ClassDef) : Prop where
  sorted : (starts decl.members).Pairwise (· < ·)
  placed : ∀ a ∈ starts decl.members, a ≠ 0

/-- The members that are left and those that are replaced start at different places, in order. -/
theorem HasMembersInOrder.apart (h : HasMembersInOrder decl) (c : Component) :
    (starts (left c decl)).Pairwise (· < ·) ∧ (loweredOffsets c decl.members).Pairwise (· < ·) ∧
      ∀ a ∈ loweredOffsets c decl.members, a ∉ starts (left c decl) := by
  have sublist (p : Member → Bool) : (starts (decl.members.filter p)).Sublist (starts decl.members) :=
    List.filter_sublist.map _
  refine ⟨h.sorted.sublist (sublist _), h.sorted.sublist (sublist _), fun a gone stays => ?_⟩
  obtain ⟨m, mem, rfl⟩ := List.mem_map.mp gone
  obtain ⟨n, mem', same⟩ := List.mem_map.mp stays
  rw [List.mem_filter] at mem
  rw [left, List.mem_filter] at mem'
  have distinct : (starts decl.members).Nodup := h.sorted.imp fun less => less.ne
  obtain rfl := List.inj_on_of_nodup_map distinct mem'.1 mem.1 same
  rw [mem.2] at mem'
  cases mem'.2

/-- How the comments of the replaced fields of a class move, given the constructor that the class gets. -/
structure MovesFields (c : Component) (decl lowered : ClassDef) (constructor : Member)
    (moves : List CommentMove) : Prop where
  /-- They move to the next member that is left, or else to the constructor. -/
  moves : moves =
    movesTo (starts (left c decl)) constructor.span.start (loweredOffsets c decl.members)
  /-- The constructor is the first one of the lowered class. -/
  first : (constructors lowered.members).head? = some constructor
  /-- It stands where a member stands that is left, or where the first field was that needs it. -/
  resort : IsResort (starts (left c decl)) (loweredOffsets c decl.members) constructor.span.start
  /-- The places of the members that are left are places of the lowered class. -/
  stay : ∀ a ∈ starts (left c decl), a ∈ starts lowered.members

theorem starts_append (members more : List Member) : starts (members ++ more) = starts members ++ starts more :=
  List.map_append

/-- How the comments of the replaced fields of a class in order move. -/
theorem movesFields_lowerClass (ordered : HasMembersInOrder decl)
    (lowers : lowerClass decl c s = .ok lowered) :
    ∃ constructor, MovesFields c decl lowered.decl constructor (classMoves decl c) := by
  obtain ⟨constructed, installs, eq, moves, -⟩ := lowerClass_parts lowers
  change installConstructor (left c decl) _ = _ at installs
  have moved : classMoves decl c =
      (allFieldMoves (loweredOffsets c decl.members) constructed.members).2 :=
    List.append_cancel_left ((classMoves_eq lowers).symm.trans moves)
  have placed {a : Nat} (h : a ∈ starts (left c decl) ++ loweredOffsets c decl.members) : a ≠ 0 :=
    ordered.placed a (mem_starts_iff.mpr h)
  obtain without | ⟨before, old, after, split, without, constructs⟩ :=
    exists_constructor_or (left c decl)
  · rw [installConstructor_first without] at installs
    cases installs
    obtain ⟨span, all, resort⟩ := allFieldMoves_unplaced (ordered.apart c).2.1
      (fun o mem => placed (List.mem_append_right _ mem)) (injectedStatements c.internalsMembers)
      (left c decl)
    rw [all] at moved eq
    refine ⟨hostConstructor span (injectedStatements c.internalsMembers), moved, ?_, resort, ?_⟩
    · rw [eq]
      rfl
    · intro a mem
      rw [eq, starts_append]
      exact List.mem_append_left _ (List.mem_cons_of_mem _ mem)
  · have mem : old.span.start ∈ starts (left c decl) := List.mem_map_of_mem (by simp [split])
    rw [split, installConstructor_instead without constructs] at installs
    cases installs
    have all := allFieldMoves_placed without (placed (List.mem_append_left _ mem))
      (injectedStatements c.internalsMembers ++ bodyStatements old) after
      (loweredOffsets c decl.members)
    have places : starts (before ++ hostConstructor old.span
        (injectedStatements c.internalsMembers ++ bodyStatements old) :: after) =
          starts (left c decl) := by
      rw [split, starts_split, starts_split, span_hostConstructor]
    rw [places] at all
    rw [all] at moved eq
    refine ⟨hostConstructor old.span (injectedStatements c.internalsMembers ++ bodyStatements old),
      moved, ?_, .place mem, ?_⟩
    · rw [eq]
      dsimp only
      rw [List.append_assoc]
      exact head?_constructors without rfl
    · intro a mem
      rw [eq, starts_append, places]
      exact List.mem_append_left _ mem

end ComponentLowering.Lowering
