/-
# Spelled paths

Two texts name the same path if they have the same parts, and they say the same if they differ in a dot at their
front at most.  A path has no such dot if its first piece is another one, which stays so whatever is joined to it.
-/
import ComponentLowering.Proofs.Batch.JoinedPaths

namespace ComponentLowering.Batch

variable {a b dir path rel : String}

/-! ### The same path -/

theorem samePath_iff : samePath a b = true ↔ parts a = parts b := beq_iff_eq

/-! ### Paths with and without a dot at the front -/

/-- Whether two paths are the same but for a dot at the front. -/
structure SameButDot (a b : String) : Prop where
  absolute : isAbsolute a.toList = isAbsolute b.toList
  spoken : spoken a = spoken b

theorem SameButDot.trans {c : String} (same : SameButDot a b) (same' : SameButDot b c) : SameButDot a c :=
  ⟨same.absolute.trans same'.absolute, same.spoken.trans same'.spoken⟩

/-- The piece of a path that a part is read from, if it says something. -/
def PathPart.piece? : PathPart → Option (List Char)
  | root | current => none
  | parent => some ['.', '.']
  | name text => some text

theorem bind_partOf?_piece? (piece : List Char) :
    (partOf? piece).bind PathPart.piece? = if isSilent piece then none else some piece := by
  unfold partOf?
  split
  · rfl
  · split
    · rename_i up
      rw [beq_iff_eq] at up
      rw [up]
      rfl
    · rfl

/-- What a path says can be read off its parts. -/
theorem spoken_eq_filterMap (path : String) : spoken path = (Batch.parts path).filterMap PathPart.piece? := by
  obtain ⟨lead, unnamed, eq⟩ := exists_lead path
  have quiet : lead.filterMap PathPart.piece? = [] := by
    rw [List.filterMap_eq_nil_iff]
    intro part mem
    rcases unnamed part mem with rfl | rfl <;> rfl
  rw [eq, List.filterMap_append, quiet, List.nil_append, List.filterMap_filterMap]
  simp only [bind_partOf?_piece?]
  unfold spoken
  induction segments path.toList with
  | nil => rfl
  | cons piece rest ih =>
      rw [List.filter_cons, List.filterMap_cons, ih]
      cases isSilent piece <;> rfl

/-- What the pieces of a path say is a step upwards or a name. -/
theorem ne_of_mem_filterMap {pieces : List (List Char)} {part : PathPart} (mem : part ∈ pieces.filterMap partOf?) :
    part ≠ .root ∧ part ≠ .current := by
  obtain ⟨piece, -, eq⟩ := List.mem_filterMap.mp mem
  unfold partOf? at eq
  split at eq
  · cases eq
  · split at eq <;> cases eq <;> exact ⟨nofun, nofun⟩

/-- A path is absolute exactly if the root is one of its parts. -/
theorem isAbsolute_iff_mem : isAbsolute path.toList = true ↔ .root ∈ Batch.parts path := by
  have rootless : .root ∉ (segments path.toList).filterMap partOf? :=
    fun mem => (ne_of_mem_filterMap mem).1 rfl
  unfold Batch.parts partsOf
  dsimp only
  split
  · rename_i absolute
    exact iff_of_true absolute (List.mem_cons_self ..)
  · rename_i relative
    refine iff_of_false relative ?_
    split
    · exact List.not_mem_cons_of_ne_of_not_mem nofun rootless
    · exact rootless

theorem sameButDot_of_samePath (same : samePath a b = true) : SameButDot a b := by
  rw [samePath_iff] at same
  refine ⟨?_, ?_⟩
  · rw [Bool.eq_iff_iff, isAbsolute_iff_mem, isAbsolute_iff_mem, same]
  · rw [spoken_eq_filterMap, spoken_eq_filterMap, same]

/-! ### Paths without a dot at the front -/

/-- Whether a path has no dot at its front. -/
def Undotted (path : String) : Prop := (segments path.toList).head? ≠ some ['.']

instance : Decidable (Undotted path) := inferInstanceAs (Decidable (_ ≠ _))

theorem Undotted.not_mem (h : Undotted path) : .current ∉ Batch.parts path := by
  have dotless : .current ∉ (segments path.toList).filterMap partOf? :=
    fun mem => (ne_of_mem_filterMap mem).2 rfl
  have front : ((segments path.toList).head? == some ['.']) = false := beq_eq_false_iff_ne.mpr h
  unfold Batch.parts partsOf
  dsimp only
  rw [front, if_neg Bool.false_ne_true]
  split
  · exact List.not_mem_cons_of_ne_of_not_mem nofun dotless
  · exact dotless

/-- What is joined to a path comes behind its front. -/
theorem undotted_join (text : dir ≠ "") (relative : isAbsolute rel.toList = false) :
    Undotted (join dir rel) ↔ Undotted dir := by
  obtain ⟨inside, silent, nonempty, -, eq, joined⟩ := segments_join text relative
  unfold Undotted
  rw [joined, eq, List.head?_append_of_ne_nil _ nonempty, List.head?_append_of_ne_nil _ nonempty]

end ComponentLowering.Batch
