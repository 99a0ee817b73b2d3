/-
# Joined paths

A path is read piece by piece.  What is joined to a directory adds its pieces to those of the directory; if it is
relative and has no steps upwards, it adds names only.
-/
import ComponentLowering.Batch.Path
import Mathlib.Data.List.Basic

namespace ComponentLowering.Batch

variable {dir rel path : String} {segment : List Char}

/-! ### Pieces -/

/-- Whether a piece of a path is a name. -/
structure IsName (segment : List Char) : Prop where
  speaks : isSilent segment = false
  down : segment ≠ ['.', '.']

theorem IsName.partOf (h : IsName segment) : partOf? segment = some (.name segment) := by
  unfold partOf?
  rw [h.speaks, if_neg Bool.false_ne_true, if_neg (by simpa using h.down)]

/-! ### Joined paths -/

/-- Whether a path only goes downwards. -/
structure IsDescent (rel : String) : Prop where
  relative : isAbsolute rel.toList = false
  down : ∀ segment ∈ segments rel.toList, segment ≠ ['.', '.']

/-- The pieces of a path that say something. -/
def spoken (path : String) : List (List Char) := (segments path.toList).filter fun s => !isSilent s

theorem segments_append (text rest : List Char) :
    segments (text ++ '/' :: rest) = segments text ++ segments rest :=
  List.splitOn_append_cons_self ..

theorem segments_ne_nil (text : List Char) : segments text ≠ [] := List.splitOn_ne_nil _ _

/-- The pieces of a joined path: those of the directory, but for what is empty at its end, and those of
what is joined to it. -/
theorem segments_join (text : dir ≠ "") (relative : isAbsolute rel.toList = false) :
    ∃ inside silent, inside ≠ [] ∧ (∀ s ∈ silent, isSilent s = true) ∧
      segments dir.toList = inside ++ silent ∧
      segments (join dir rel).toList = inside ++ segments rel.toList := by
  have unended : dir.isEmpty = false := by simpa using text
  unfold join
  rw [relative, unended, if_neg Bool.false_ne_true]
  by_cases ended : dir.toList.getLast? = some '/'
  · obtain ⟨front, eq⟩ := List.getLast?_eq_some_iff.mp ended
    refine ⟨segments front, [[]], segments_ne_nil front, by simp [isSilent], ?_, ?_⟩
    · rw [eq, segments_append]
      rfl
    · rw [if_pos (by simp [ended]), String.toList_append, eq, List.append_assoc]
      exact segments_append front rel.toList
  · refine ⟨segments dir.toList, [], segments_ne_nil _, List.forall_mem_nil _, by simp, ?_⟩
    rw [if_neg (by simpa using ended), String.toList_append, String.toList_append, List.append_assoc]
    exact segments_append dir.toList rel.toList

theorem isAbsolute_join (text : dir ≠ "") (relative : isAbsolute rel.toList = false) :
    isAbsolute (join dir rel).toList = isAbsolute dir.toList := by
  have nonempty : dir.toList ≠ [] := by simpa using text
  unfold join isAbsolute at *
  rw [relative, if_neg Bool.false_ne_true]
  split
  · rw [String.toList_append, List.head?_append_of_ne_nil _ nonempty]
  · rw [String.toList_append, String.toList_append, List.append_assoc,
      List.head?_append_of_ne_nil _ nonempty]

theorem join_ne_empty (text : dir ≠ "") (relative : isAbsolute rel.toList = false) : join dir rel ≠ "" := by
  unfold join
  rw [relative, if_neg Bool.false_ne_true]
  split <;> simp [text]

theorem spoken_join (text : dir ≠ "") (relative : isAbsolute rel.toList = false) :
    spoken (join dir rel) = spoken dir ++ spoken rel := by
  obtain ⟨inside, silent, -, quiet, eq, joined⟩ := segments_join text relative
  have none : silent.filter (fun s => !isSilent s) = [] :=
    List.filter_eq_nil_iff.mpr fun s mem => by simp [quiet s mem]
  unfold spoken
  rw [joined, eq, List.filter_append, List.filter_append, none, List.append_nil]

theorem filterMap_partOf_silent {l : List (List Char)} (silent : ∀ s ∈ l, isSilent s = true) :
    l.filterMap partOf? = [] := by
  rw [List.filterMap_eq_nil_iff]
  intro s mem
  rw [partOf?, if_pos (silent s mem)]

theorem filterMap_partOf_down {l : List (List Char)} (down : ∀ s ∈ l, s ≠ ['.', '.']) :
    l.filterMap partOf? = (l.filter fun s => !isSilent s).map .name := by
  induction l with
  | nil => rfl
  | cons segment rest ih =>
      obtain ⟨here, later⟩ := List.forall_mem_cons.mp down
      rw [List.filterMap_cons, ih later, List.filter_cons]
      cases speaks : isSilent segment with
      | true => simp [partOf?, speaks]
      | false => simp [IsName.partOf ⟨speaks, here⟩]

/-- Going downwards adds the names to the parts of the directory. -/
theorem parts_join (text : dir ≠ "") (descent : IsDescent rel) :
    parts (join dir rel) = parts dir ++ (spoken rel).map .name := by
  obtain ⟨inside, silent, nonempty, quiet, eq, joined⟩ := segments_join text descent.relative
  unfold parts partsOf spoken
  rw [joined, eq, isAbsolute_join text descent.relative, List.filterMap_append, List.filterMap_append,
    filterMap_partOf_silent quiet, filterMap_partOf_down descent.down,
    List.head?_append_of_ne_nil _ nonempty, List.head?_append_of_ne_nil _ nonempty, List.append_nil]
  dsimp only
  split
  · rfl
  · split <;> rfl

/-! ### What is joined -/

theorem not_mem_of_mem_segments {text segment : List Char} (mem : segment ∈ segments text) :
    '/' ∉ segment := by
  unfold segments at mem
  induction text generalizing segment with
  | nil => simp_all
  | cons c rest ih =>
      rw [List.splitOn_cons_eq_if_modifyHead] at mem
      split at mem
      · rcases List.mem_cons.mp mem with rfl | mem
        · exact List.not_mem_nil
        · exact ih mem
      · rename_i other
        obtain ⟨first, later, eq⟩ := List.exists_cons_of_ne_nil (List.splitOn_ne_nil '/' rest)
        rw [eq] at mem ih
        rcases List.mem_cons.mp mem with rfl | mem
        · have apart : '/' ∉ first := ih (List.mem_cons_self ..)
          simp [apart, Ne.symm (by simpa using other)]
        · exact ih (List.mem_cons_of_mem _ mem)

/-- In front of what the pieces of a path say there is at most the root or the dot. -/
theorem exists_lead (path : String) :
    ∃ lead, (∀ part ∈ lead, part = .root ∨ part = .current) ∧
      parts path = lead ++ (segments path.toList).filterMap partOf? := by
  unfold parts partsOf
  dsimp only
  split
  · exact ⟨[.root], by simp, rfl⟩
  · split
    · exact ⟨[.current], by simp, rfl⟩
    · exact ⟨[], List.forall_mem_nil _, rfl⟩

/-- The file name is one of the pieces of a path. -/
theorem fileName?_eq {name : String} (named : fileName? path = some name) :
    name.toList ∈ segments path.toList ∧ IsName name.toList := by
  unfold fileName? at named
  split at named
  · rename_i text last
    cases named
    obtain ⟨lead, unnamed, eq⟩ := exists_lead path
    have part : PathPart.name text ∈ (segments path.toList).filterMap partOf? := by
      have mem := List.mem_of_getLast? last
      rw [eq, List.mem_append] at mem
      refine mem.resolve_left fun mem => ?_
      rcases unnamed _ mem with eq | eq <;> cases eq
    obtain ⟨segment, mem, eq⟩ := List.mem_filterMap.mp part
    unfold partOf? at eq
    split at eq
    · cases eq
    · rename_i speaks
      split at eq
      · cases eq
      · rename_i down
        cases eq
        rw [String.toList_ofList]
        exact ⟨mem, ⟨by simpa using speaks, by simpa using down⟩⟩
  · cases named

theorem isDescent_fileName {name : String} (named : fileName? path = some name) : IsDescent name := by
  obtain ⟨mem, isName⟩ := fileName?_eq named
  have solid : '/' ∉ name.toList := not_mem_of_mem_segments mem
  constructor
  · unfold isAbsolute
    rw [beq_eq_false_iff_ne]
    exact fun head => solid (List.mem_of_head? head)
  · unfold segments
    rw [List.splitOn_eq_singleton solid]
    exact List.forall_mem_singleton.mpr isName.down

end ComponentLowering.Batch
