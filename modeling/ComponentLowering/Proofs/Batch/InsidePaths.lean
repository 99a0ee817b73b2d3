/-
# Paths inside the output directory

The parts of an output path begin with those of the output directory, and what follows only goes down: the
parts of the input without a dot at its front if it is relative and has no step upwards, its file name
otherwise.  This holds of every text for the directory, be it empty, absolute or itself a step upwards.
-/
import ComponentLowering.Proofs.Batch.JoinedPaths

namespace ComponentLowering.Batch

variable {dir rel path : String}

/-! ### Paths that go down -/

/-- The dot in front of a path, if it has one. -/
def leadingDot (path : String) : List PathPart :=
  if (segments path.toList).head? == some ['.'] then [.current] else []

theorem mem_leadingDot {part : PathPart} (mem : part ∈ leadingDot path) : part = .current := by
  unfold leadingDot at mem
  split at mem
  · exact List.mem_singleton.mp mem
  · cases mem

/-- The parts of a path that only goes down: names behind at most one dot. -/
theorem IsDescent.parts (h : IsDescent path) :
    parts path = leadingDot path ++ (spoken path).map .name := by
  unfold Batch.parts partsOf leadingDot spoken
  rw [h.relative, filterMap_partOf_down h.down]
  dsimp only
  rw [if_neg Bool.false_ne_true]
  split <;> rfl

/-- A path goes down exactly if it is relative and has no step upwards among its parts. -/
theorem isDescent_iff :
    IsDescent path ↔ isAbsolute path.toList = false ∧ PathPart.parent ∉ parts path := by
  constructor
  · intro h
    refine ⟨h.relative, fun up => ?_⟩
    rw [h.parts, List.mem_append] at up
    rcases up with dot | name
    · cases mem_leadingDot dot
    · obtain ⟨segment, -, eq⟩ := List.mem_map.mp name
      cases eq
  · rintro ⟨relative, down⟩
    refine ⟨relative, fun segment mem up => down ?_⟩
    subst up
    obtain ⟨lead, -, eq⟩ := exists_lead path
    rw [eq]
    exact List.mem_append_right lead (List.mem_filterMap.mpr ⟨_, mem, rfl⟩)

instance : Decidable (IsDescent path) := decidable_of_iff _ isDescent_iff.symm

/-- The parts of a path that goes down, without the dot at its front, are its names. -/
theorem IsDescent.filter_parts (h : IsDescent path) :
    (Batch.parts path).filter (· != .current) = (spoken path).map .name := by
  have dots : (leadingDot path).filter (· != .current) = [] :=
    List.filter_eq_nil_iff.mpr fun part mem => by simp [mem_leadingDot mem]
  rw [h.parts, List.filter_append, dots, List.nil_append, List.filter_eq_self]
  intro part mem
  obtain ⟨segment, -, rfl⟩ := List.mem_map.mp mem
  rfl

theorem join_empty (relative : isAbsolute rel.toList = false) : join "" rel = rel := by
  unfold join
  rw [relative, if_neg Bool.false_ne_true, if_pos (by decide), String.empty_append]

/-! ### File names -/

theorem spoken_fileName {name : String} (named : fileName? path = some name) :
    spoken name = [name.toList] := by
  obtain ⟨mem, isName⟩ := fileName?_eq named
  unfold spoken segments
  rw [List.splitOn_eq_singleton (not_mem_of_mem_segments mem), List.filter_singleton]
  simp [isName.speaks]

theorem parts_fileName {name : String} (named : fileName? path = some name) :
    parts name = [.name name.toList] := by
  obtain ⟨mem, isName⟩ := fileName?_eq named
  have undotted : leadingDot name = [] := by
    unfold leadingDot segments
    rw [List.splitOn_eq_singleton (not_mem_of_mem_segments mem), if_neg]
    intro dot
    have silent := isName.speaks
    rw [Option.some.inj (beq_iff_eq.mp dot)] at silent
    cases silent
  rw [(isDescent_fileName named).parts, undotted, spoken_fileName named]
  rfl

theorem mem_spoken_fileName {name : String} (named : fileName? path = some name) :
    name.toList ∈ spoken path := by
  obtain ⟨mem, isName⟩ := fileName?_eq named
  exact List.mem_filter.mpr ⟨mem, by simp [isName.speaks]⟩

/-! ### Output paths -/

theorem outputPath_of_isDescent (h : IsDescent path) : outputPath dir path = join dir path := by
  obtain ⟨relative, down⟩ := isDescent_iff.mp h
  unfold outputPath
  rw [if_pos (by simp [relative, down])]

theorem outputPath_of_not_isDescent {name : String} (named : fileName? path = some name)
    (h : ¬IsDescent path) : outputPath dir path = join dir name := by
  rw [isDescent_iff] at h
  unfold outputPath
  rw [if_neg (by simpa using h), named]
  rfl

/-- The names under which a result is put inside the output directory. -/
def insideNames (path : String) : List (List Char) :=
  if IsDescent path then spoken path else ((fileName? path).map String.toList).toList

/-- An output path goes down from the output directory, along the names under which the result is put. -/
theorem exists_outputPath_eq (dir : String) (named : (fileName? path).isSome) :
    ∃ rel, IsDescent rel ∧ spoken rel = insideNames path ∧ outputPath dir path = join dir rel := by
  obtain ⟨name, named⟩ := Option.isSome_iff_exists.mp named
  unfold insideNames
  by_cases descent : IsDescent path
  · rw [if_pos descent]
    exact ⟨path, descent, rfl, outputPath_of_isDescent descent⟩
  · rw [if_neg descent, named]
    exact ⟨name, isDescent_fileName named, spoken_fileName named, outputPath_of_not_isDescent named descent⟩

theorem spoken_outputPath (dir : String) (named : (fileName? path).isSome) :
    spoken (outputPath dir path) = spoken dir ++ insideNames path := by
  obtain ⟨rel, descent, names, eq⟩ := exists_outputPath_eq dir named
  rw [eq, ← names]
  by_cases text : dir = ""
  · rw [text, join_empty descent.relative]
    rfl
  · exact spoken_join text descent.relative

theorem isAbsolute_outputPath (dir : String) (named : (fileName? path).isSome) :
    isAbsolute (outputPath dir path).toList = isAbsolute dir.toList := by
  obtain ⟨rel, descent, -, eq⟩ := exists_outputPath_eq dir named
  rw [eq]
  by_cases text : dir = ""
  · rw [text, join_empty descent.relative, descent.relative]
    rfl
  · exact isAbsolute_join text descent.relative

/-- A dot in front of an input stays in front if the output directory has no text. -/
def keptDot (dir path : String) : List PathPart :=
  if dir = "" ∧ IsDescent path then leadingDot path else []

/-- What an output path adds to the parts of the output directory. -/
def insideParts (dir path : String) : List PathPart := keptDot dir path ++ (insideNames path).map .name

theorem keptDot_eq (dir path : String) : keptDot dir path = [] ∨ keptDot dir path = [.current] := by
  unfold keptDot leadingDot
  split
  · split
    · exact .inr rfl
    · exact .inl rfl
  · exact .inl rfl

/-- A path adds the same parts exactly if it adds the same names behind the same dot. -/
theorem insideParts_eq_iff {other : String} :
    insideParts dir path = insideParts dir other ↔
      insideNames path = insideNames other ∧ keptDot dir path = keptDot dir other := by
  have names : Function.Injective PathPart.name := fun _ _ => PathPart.name.inj
  have undotted (l : List (List Char)) (rest : List PathPart) :
      l.map PathPart.name ≠ [.current] ++ rest := by
    cases l <;> simp
  unfold insideParts
  rcases keptDot_eq dir path with eq | eq <;> rcases keptDot_eq dir other with eq' | eq' <;>
    rw [eq, eq']
  · simp [names.list_map.eq_iff]
  · simpa using undotted _ _
  · simpa using (undotted _ _).symm
  · simp [names.list_map.eq_iff]

/-- The parts of an output path. -/
theorem parts_outputPath (dir : String) (named : (fileName? path).isSome) :
    parts (outputPath dir path) = parts dir ++ insideParts dir path := by
  obtain ⟨name, named⟩ := Option.isSome_iff_exists.mp named
  unfold insideParts keptDot insideNames
  by_cases descent : IsDescent path
  · rw [if_pos descent, outputPath_of_isDescent descent]
    by_cases text : dir = ""
    · subst text
      rw [if_pos ⟨rfl, descent⟩, join_empty descent.relative, ← descent.parts]
      rfl
    · rw [if_neg fun h => text h.1, parts_join text descent, List.nil_append]
  · have inside := isDescent_fileName named
    rw [if_neg descent, if_neg fun h => descent h.2, outputPath_of_not_isDescent named descent, named]
    by_cases text : dir = ""
    · subst text
      rw [join_empty inside.relative, parts_fileName named]
      rfl
    · rw [parts_join text inside, spoken_fileName named]
      rfl

/-- How an output path stays inside the output directory. -/
structure StaysInside (dir path : String) (inside : List PathPart) : Prop where
  /-- It begins with all parts of the directory. -/
  parts : parts (outputPath dir path) = parts dir ++ inside
  /-- Something follows. -/
  follows : inside ≠ []
  /-- What follows neither goes upwards nor starts over. -/
  down : ∀ part ∈ inside, part ≠ .parent ∧ part ≠ .root
  /-- A relative path without a step upwards keeps all its parts in their order, but for a dot at its front,
  which says nothing behind a directory. -/
  kept : isAbsolute path.toList = false → .parent ∉ Batch.parts path →
    inside = if dir = "" then Batch.parts path else (Batch.parts path).filter (· != .current)
  /-- Of any other path the file name is left. -/
  flattened : isAbsolute path.toList = true ∨ .parent ∈ Batch.parts path →
    ∃ name, fileName? path = some name ∧ inside = [.name name.toList]

/-- The result for a file with a name goes to a path inside the output directory. -/
theorem outputPath_staysInside (dir : String) (named : (fileName? path).isSome) :
    StaysInside dir path (insideParts dir path) := by
  have whole := parts_outputPath dir named
  obtain ⟨name, named⟩ := Option.isSome_iff_exists.mp named
  have down : ∀ part ∈ insideParts dir path, part ≠ .parent ∧ part ≠ .root := by
    intro part mem
    rcases List.mem_append.mp mem with dot | mem
    · unfold keptDot at dot
      split at dot
      · simp [mem_leadingDot dot]
      · cases dot
    · obtain ⟨segment, -, rfl⟩ := List.mem_map.mp mem
      simp
  by_cases descent : IsDescent path
  · have names : insideNames path = spoken path := if_pos descent
    obtain ⟨relative, upward⟩ := isDescent_iff.mp descent
    refine ⟨whole, ?follows, down, fun _ _ => ?kept, fun outside => ?flattened⟩
    case follows =>
      have mem := mem_spoken_fileName named
      rw [← names] at mem
      exact List.append_ne_nil_of_right_ne_nil _ (List.ne_nil_of_mem (List.mem_map_of_mem mem))
    case kept =>
      unfold insideParts keptDot
      rw [names]
      split
      · rename_i text
        rw [if_pos text.1, descent.parts]
      · rename_i text
        rw [if_neg fun none => text ⟨none, descent⟩, descent.filter_parts, List.nil_append]
    case flattened =>
      rcases outside with absolute | up
      · rw [relative] at absolute
        cases absolute
      · exact absurd up upward
  · have inside : insideParts dir path = [.name name.toList] := by
      unfold insideParts keptDot insideNames
      rw [if_neg descent, if_neg fun h => descent h.2, named]
      rfl
    refine ⟨whole, by simp [inside], down, fun relative upward => ?_, fun _ => ⟨name, named, inside⟩⟩
    exact absurd (isDescent_iff.mpr ⟨relative, upward⟩) descent

/-- An input with steps upwards, and a directory that is a step upwards itself: neither leads out of the
directory. -/
theorem outputPath_staysInside_above :
    (fileName? "./src//../../cmp.ts/.").isSome = true ∧
      StaysInside "/srv/../out//." "./src//../../cmp.ts/." [.name "cmp.ts".toList] ∧
      (fileName? "./src/./cmp.ts").isSome = true ∧
      StaysInside ".." "./src/./cmp.ts" [.name "src".toList, .name "cmp.ts".toList] := by
  have named : (fileName? "./src//../../cmp.ts/.").isSome = true := by decide
  have named' : (fileName? "./src/./cmp.ts").isSome = true := by decide
  exact ⟨named, outputPath_staysInside "/srv/../out//." named, named', outputPath_staysInside ".." named'⟩

end ComponentLowering.Batch
