/-
# Comments inside of classes

When a field is taken out of a class, the comments in front of it move to a member that is left, or to
the constructor, which may be put where the field was.  So each place at which a member of the class
started is left, is one from which comments move, or is the top of the module; and comments move only
to places that are there in the end.
-/
import ComponentLowering.Proofs.Lowering.ReportAndMoves

namespace ComponentLowering.Lowering

open ComponentLowering.Code ComponentLowering.Component ComponentLowering.Syntax
open ComponentLowering.Syntax.Parser

variable {offset : Nat} {members : List Member}

/-- The offsets at which some members start. -/
def starts (members : List Member) : List Nat := members.map (·.span.start)

/-- Whether an offset is the top of a module or one of some places. -/
def IsAmong (places : List Nat) (a : Nat) : Prop := a = 0 ∨ a ∈ places

theorem IsAmong.of_mem {places : List Nat} {a : Nat} (h : a ∈ places) : IsAmong places a := .inr h

theorem IsAmong.left {places more : List Nat} {a : Nat} (h : a ∈ places) :
    IsAmong (places ++ more) a := .inr (List.mem_append_left _ h)

theorem IsAmong.right {places more : List Nat} {a : Nat} (h : a ∈ more) :
    IsAmong (places ++ more) a := .inr (List.mem_append_right _ h)

theorem IsAmong.trans {places more : List Nat} {a : Nat} (h : IsAmong places a)
    (all : ∀ b ∈ places, IsAmong more b) : IsAmong more a := by
  rcases h with rfl | mem
  · exact .inl rfl
  · exact all a mem

/-- How the members of a class, some offsets at which members are gone, the members that are left and the
moves of the comments belong together. -/
structure MovesAway (offsets : List Nat) (members new : List Member) (moves : List CommentMove) :
    Prop where
  /-- Comments move away from the offsets only. -/
  sources : ∀ move ∈ moves, move.source ∈ offsets
  /-- They move to places that are left. -/
  targets : ∀ move ∈ moves, IsAmong (starts new) move.target
  /-- The places of members are left. -/
  kept : ∀ a ∈ starts members, IsAmong (starts new) a
  /-- Each offset is a place again, or comments move away from it. -/
  gone : ∀ a ∈ offsets, IsAmong (starts new) a ∨ ∃ move ∈ moves, move.source = a
  /-- No other place is new. -/
  new : ∀ a ∈ starts new, IsAmong (starts members ++ offsets) a

theorem moveTo_source {source target : Nat} {move : CommentMove} (h : move ∈ moveTo source target) :
    move = { source, target } := by
  unfold moveTo at h
  split at h
  · cases h
  · exact List.mem_singleton.mp h

theorem eq_or_mem_moveTo (source target : Nat) :
    source = target ∨ { source, target } ∈ moveTo source target := by
  unfold moveTo
  split
  · rename_i same
    exact .inl (beq_iff_eq.mp same)
  · exact .inr (List.mem_singleton_self _)

/-- Comments move from one offset to a place that is left. -/
theorem MovesAway.moveTo {target : Nat} (left : target ∈ starts members) :
    MovesAway [offset] members members (moveTo offset target) where
  sources := fun move mem => by
    rw [moveTo_source mem]
    exact List.mem_singleton_self _
  targets := fun move mem => by
    rw [moveTo_source mem]
    exact .of_mem left
  kept := fun a mem => .of_mem mem
  gone := fun a mem => by
    obtain rfl := List.mem_singleton.mp mem
    rcases eq_or_mem_moveTo a target with rfl | moves
    · exact .inl (.of_mem left)
    · exact .inr ⟨_, moves, rfl⟩
  new := fun a mem => .left mem

/-- Members that start at the same places, or at the top, are left for others. -/
theorem MovesAway.of_starts {new : List Member} (kept : ∀ a ∈ starts members, a ∈ starts new)
    (only : ∀ a ∈ starts new, IsAmong (starts members) a) : MovesAway [] members new [] where
  sources := fun _ mem => absurd mem List.not_mem_nil
  targets := fun _ mem => absurd mem List.not_mem_nil
  kept := fun a mem => .of_mem (kept a mem)
  gone := fun _ mem => absurd mem List.not_mem_nil
  new := fun a mem => (List.append_nil (starts members)).symm ▸ only a mem

theorem starts_split (before after : List Member) (m : Member) :
    starts (before ++ m :: after) = starts before ++ m.span.start :: starts after :=
  List.map_append

/-- A member that was at the top may be put where comments are. -/
theorem MovesAway.replace {before after : List Member} {old new : Member}
    (top : old.span.start = 0) (place : new.span.start = offset) :
    MovesAway [offset] (before ++ old :: after) (before ++ new :: after) [] where
  sources := fun _ mem => absurd mem List.not_mem_nil
  targets := fun _ mem => absurd mem List.not_mem_nil
  kept := fun a mem => by
    rw [starts_split, top, List.mem_append, List.mem_cons] at mem
    rw [starts_split]
    rcases mem with left | rfl | left
    · exact .of_mem (List.mem_append_left _ left)
    · exact .inl rfl
    · exact .of_mem (List.mem_append_right _ (List.mem_cons_of_mem _ left))
  gone := fun a mem => by
    rw [List.mem_singleton.mp mem, starts_split, place]
    exact .inl (.of_mem (List.mem_append_right _ (List.mem_cons_self ..)))
  new := fun a mem => by
    rw [starts_split, place, List.mem_append, List.mem_cons] at mem
    rw [starts_split]
    rcases mem with left | rfl | left
    · exact .left (List.mem_append_left _ left)
    · exact .right (List.mem_singleton_self _)
    · exact .left (List.mem_append_right _ (List.mem_cons_of_mem _ left))

theorem span_at (span : Span) (m : Member) : (Member.at span m).span = span := by
  cases m <;> rfl

theorem isConstructor_at (span : Span) (m : Member) :
    isConstructor (Member.at span m) = isConstructor m := by
  cases m <;> rfl

/-- The comments in front of a field that is gone find a place as long as there is a constructor. -/
theorem movesAway_fieldMoves (offset : Nat) (constructs : members.any isConstructor = true) :
    MovesAway [offset] members (fieldMoves offset members).1 (fieldMoves offset members).2 ∧
      (fieldMoves offset members).1.any isConstructor = true := by
  unfold fieldMoves moveFieldComments
  cases next : members.find? fun m => offset < m.span.start with
  | some m =>
      simp only [moveComments_eq, ModuleState.withMoves_moves, List.nil_append]
      exact ⟨.moveTo (List.mem_map_of_mem (List.mem_of_find?_eq_some next)), constructs⟩
  | none =>
      cases index : constructorIndex? members with
      | none =>
          obtain ⟨m, mem, is⟩ := List.any_eq_true.mp constructs
          have other := List.findIdx?_eq_none_iff.mp index m mem
          rw [is] at other
          cases other
      | some i =>
          obtain ⟨before, old, after, rfl, rfl, -, is⟩ := constructorIndex?_eq_some index
          have here : (before ++ old :: after)[before.length]? = some old := by simp
          simp only [here]
          split
          · rename_i top
            simp only [moveComments_eq, ModuleState.withMoves_moves, List.nil_append]
            have stays : Lowering.moveTo offset offset = [] := by simp [Lowering.moveTo]
            rw [stays, List.set_append_right _ _ le_rfl, Nat.sub_self, List.set_cons_zero]
            refine ⟨.replace top (by rw [span_at]; rfl), List.any_eq_true.mpr
              ⟨_, List.mem_append_right _ (List.mem_cons_self ..), ?_⟩⟩
            rw [isConstructor_at, is]
          · simp only [moveComments_eq, ModuleState.withMoves_moves, List.nil_append]
            exact ⟨.moveTo (List.mem_map_of_mem (by simp)), constructs⟩

/-- The comments of one field after the other find their places. -/
theorem MovesAway.append {offsets more : List Nat} {between new : List Member}
    {moves later : List CommentMove} (h : MovesAway offsets members between moves)
    (h' : MovesAway more between new later) :
    MovesAway (offsets ++ more) members new (moves ++ later) where
  sources := fun move mem => by
    rcases List.mem_append.mp mem with first | second
    · exact List.mem_append_left _ (h.sources move first)
    · exact List.mem_append_right _ (h'.sources move second)
  targets := fun move mem => by
    rcases List.mem_append.mp mem with first | second
    · exact (h.targets move first).trans h'.kept
    · exact h'.targets move second
  kept := fun a mem => (h.kept a mem).trans h'.kept
  gone := fun a mem => by
    rcases List.mem_append.mp mem with first | second
    · rcases h.gone a first with left | ⟨move, moves, eq⟩
      · exact .inl (left.trans h'.kept)
      · exact .inr ⟨move, List.mem_append_left _ moves, eq⟩
    · rcases h'.gone a second with left | ⟨move, moves, eq⟩
      · exact .inl left
      · exact .inr ⟨move, List.mem_append_right _ moves, eq⟩
  new := fun a mem => by
    refine (h'.new a mem).trans fun b mem => ?_
    rcases List.mem_append.mp mem with left | gone
    · rw [← List.append_assoc]
      exact (h.new b left).trans fun _ mem => .left mem
    · exact .right (List.mem_append_right _ gone)

theorem movesAway_allFieldMoves (offsets : List Nat) (constructs : members.any isConstructor = true) :
    MovesAway offsets members (allFieldMoves offsets members).1 (allFieldMoves offsets members).2 := by
  induction offsets generalizing members with
  | nil =>
      exact .of_starts (fun _ mem => mem) fun _ mem => .of_mem mem
  | cons offset rest ih =>
      obtain ⟨here, constructs'⟩ := movesAway_fieldMoves offset constructs
      exact here.append (ih constructs')

/-- The constructor is put at the top of the module or where the first one was. -/
theorem starts_installConstructor {c : Component} {constructed : Constructed}
    (h : installConstructor members (constructorStatements c) = .ok constructed) :
    constructed.members.any isConstructor = true ∧
      (starts constructed.members = 0 :: starts members ∨
        starts constructed.members = starts members) := by
  unfold installConstructor constructorStatements at h
  dsimp only at h
  rw [classMembers_constructorText] at h
  cases index : constructorIndex? members with
  | none =>
      simp only [index] at h
      cases h
      exact ⟨rfl, .inl rfl⟩
  | some i =>
      obtain ⟨before, old, after, rfl, rfl, -, -⟩ := constructorIndex?_eq_some index
      have here : (before ++ old :: after)[before.length]? = some old := by simp
      simp only [index] at h
      simp only [here] at h
      cases h
      rw [List.set_append_right _ _ le_rfl, Nat.sub_self, List.set_cons_zero]
      refine ⟨List.any_eq_true.mpr ⟨_, List.mem_append_right _ (List.mem_cons_self ..), rfl⟩, .inr ?_⟩
      unfold starts
      rw [List.map_append, List.map_append]
      rfl

theorem starts_appendedTrees {forms : Bool} {elements : List String} {a : Nat}
    (h : a ∈ starts (appendedTrees forms elements)) : a = 0 := by
  obtain ⟨m, mem, rfl⟩ := List.mem_map.mp h
  rcases List.mem_append.mp mem with form | element
  · cases forms with
    | false => cases form
    | true =>
        obtain rfl := List.mem_singleton.mp form
        rfl
  · obtain ⟨member, -, rfl⟩ := List.mem_map.mp element
    rfl

/-- The comments in front of the fields that are replaced when a class is lowered find their places. -/
theorem movesAway_lowerClass {decl : ClassDef} {c : Component} {s : ModuleState}
    {lowered : LoweredClass} (h : lowerClass decl c s = .ok lowered) :
    MovesAway (loweredOffsets c decl.members) (decl.members.filter fun m => !isLoweredField c m)
      lowered.decl.members (classMoves decl c) := by
  obtain ⟨constructed, installs, eq, moves, -⟩ := lowerClass_parts h
  have moved : classMoves decl c =
      (allFieldMoves (loweredOffsets c decl.members) constructed.members).2 :=
    List.append_cancel_left ((classMoves_eq h).symm.trans moves)
  obtain ⟨constructs, places⟩ := starts_installConstructor installs
  have installed : MovesAway [] (decl.members.filter fun m => !isLoweredField c m)
      constructed.members [] := by
    refine .of_starts (fun a mem => ?_) fun a mem => ?_ <;> rcases places with top | same
    · rw [top]
      exact List.mem_cons_of_mem _ mem
    · rwa [same]
    · rw [top] at mem
      exact List.mem_cons.mp mem
    · exact .of_mem (same ▸ mem)
  have appended (members : List Member) : MovesAway [] members
      (members ++ appendedTrees c.formAssociated c.elementMembers) [] := by
    have split : starts (members ++ appendedTrees c.formAssociated c.elementMembers) =
        starts members ++ starts (appendedTrees c.formAssociated c.elementMembers) := List.map_append
    refine .of_starts (fun a mem => ?_) fun a mem => ?_ <;> rw [split] at *
    · exact List.mem_append_left _ mem
    · rcases List.mem_append.mp mem with left | made
      · exact .of_mem left
      · exact .inl (starts_appendedTrees made)
  have whole := (installed.append (movesAway_allFieldMoves (loweredOffsets c decl.members)
    constructs)).append (appended _)
  rw [List.nil_append, List.append_nil, List.nil_append, List.append_nil] at whole
  rw [eq, moved]
  exact whole

/-- The places of the members of a class are those of the members that stay and those of the fields that
are replaced. -/
theorem mem_starts_iff {c : Component} {a : Nat} :
    a ∈ starts members ↔
      a ∈ starts (members.filter fun m => !isLoweredField c m) ++ loweredOffsets c members := by
  unfold starts loweredOffsets
  rw [← List.map_append]
  exact ((List.filter_append_perm (isLoweredField c) members).symm.trans
    List.perm_append_comm).map _ |>.mem_iff

end ComponentLowering.Lowering
