/-
# Disks

A disk has entries that are reached from one another by names.  A link is the entry that it leads to, so an
entry can be reached in many ways, and a link that leads nowhere is a name without an entry.  A path is followed
piece by piece, each of which starts from a directory.  A directory may refuse to be listed; if it is listed, all
names in it are.  File trees are disks without links whose directories can all be listed.
-/
import ComponentLowering.Proofs.Batch.Snapshots
import ComponentLowering.Proofs.Batch.SpelledPaths

namespace ComponentLowering.Batch

/-- Whether a piece can name an entry of a directory. -/
structure IsEntryName (name : List Char) : Prop extends IsName name where
  solid : '/' ∉ name

instance (name : List Char) : Decidable (IsEntryName name) :=
  decidable_of_iff (isSilent name = false ∧ name ≠ ['.', '.'] ∧ '/' ∉ name)
    ⟨fun h => ⟨⟨h.1, h.2.1⟩, h.2.2⟩, fun h => ⟨h.speaks, h.down, h.solid⟩⟩

/-! ### Spelled paths -/

section Spelling

variable {dir name path : String}

theorem isAbsolute_of_solid (solid : '/' ∉ name.toList) : isAbsolute name.toList = false := by
  rw [isAbsolute, beq_eq_false_iff_ne]
  exact fun head => solid (List.mem_of_head? head)

theorem segments_of_solid (solid : '/' ∉ name.toList) : segments name.toList = [name.toList] :=
  List.splitOn_eq_singleton solid

theorem spoken_of_solid (solid : '/' ∉ name.toList) :
    spoken name = if isSilent name.toList then [] else [name.toList] := by
  unfold spoken
  rw [segments_of_solid solid, List.filter_singleton]
  cases isSilent name.toList <;> rfl

/-- Whether a path is that of the working directory. -/
def IsDot (path : String) : Prop := samePath path "." = true

theorem isDot_iff : IsDot path ↔ isAbsolute path.toList = false ∧ spoken path = [] ∧
    (segments path.toList).head? = some ['.'] := by
  have nothing (l : List (List Char)) : l.filterMap partOf? = [] ↔ l.filter (fun s => !isSilent s) = [] := by
    rw [List.filterMap_eq_nil_iff, List.filter_eq_nil_iff]
    refine forall_congr' fun s => forall_congr' fun _ => ?_
    unfold partOf?
    cases isSilent s
    · simp only [Bool.false_eq_true, if_false, Bool.not_false, not_true_eq_false, iff_false]
      split <;> simp
    · simp
  have undotted (l : List (List Char)) : l.filterMap partOf? ≠ [.current] := by
    intro eq
    have mem : PathPart.current ∈ l.filterMap partOf? := by rw [eq]; exact List.mem_singleton_self _
    exact (ne_of_mem_filterMap mem).2 rfl
  unfold IsDot samePath
  rw [beq_iff_eq, show parts "." = [.current] from rfl]
  unfold parts partsOf spoken
  rw [← nothing]
  dsimp only
  cases isAbsolute path.toList with
  | true => simp
  | false =>
      rw [if_neg Bool.false_ne_true]
      by_cases dot : (segments path.toList).head? = some ['.']
      · simp [dot]
      · rw [if_neg (by simpa using dot)]
        exact iff_of_false (undotted _) fun h => dot h.2.2

theorem isDot_join (text : dir ≠ "") (solid : '/' ∉ name.toList) :
    IsDot (join dir name) ↔ IsDot dir ∧ isSilent name.toList = true := by
  have relative := isAbsolute_of_solid solid
  obtain ⟨inside, silent, nonempty, -, eq, joined⟩ := segments_join text relative
  rw [isDot_iff, isDot_iff, isAbsolute_join text relative, spoken_join text relative, spoken_of_solid solid,
    joined, eq, List.head?_append_of_ne_nil _ nonempty, List.head?_append_of_ne_nil _ nonempty,
    List.append_eq_nil_iff]
  cases isSilent name.toList <;> simp

/-! ### Paths of entries -/

theorem entryPath_of_isDot (dot : IsDot dir) : entryPath dir name = name := if_pos dot

theorem entryPath_of_not_isDot (other : ¬IsDot dir) : entryPath dir name = join dir name := if_neg other

/-- Whether a piece of a pattern can be looked for from a path.  The text without characters leads nowhere, not
even from the working directory to itself. -/
def CanFollow (dir name : String) : Prop := IsDot dir → name ≠ ""

/-- What the path of an entry says. -/
structure Extends (dir name path : String) : Prop where
  text : path ≠ ""
  absolute : isAbsolute path.toList = isAbsolute dir.toList
  spoken : spoken path = Batch.spoken dir ++ Batch.spoken name
  isDot : IsDot path ↔ IsDot dir ∧ isSilent name.toList = true

theorem extends_join (text : dir ≠ "") (solid : '/' ∉ name.toList) : Extends dir name (join dir name) where
  text := join_ne_empty text (isAbsolute_of_solid solid)
  absolute := isAbsolute_join text (isAbsolute_of_solid solid)
  spoken := spoken_join text (isAbsolute_of_solid solid)
  isDot := isDot_join text solid

theorem extends_entryPath (text : dir ≠ "") (solid : '/' ∉ name.toList) (follow : CanFollow dir name) :
    Extends dir name (entryPath dir name) := by
  by_cases dot : IsDot dir
  · obtain ⟨relative, silent, -⟩ := isDot_iff.mp dot
    rw [entryPath_of_isDot dot]
    refine ⟨follow dot, by rw [relative, isAbsolute_of_solid solid], by rw [silent, List.nil_append], ?_⟩
    have text' : name.toList ≠ [] := by simpa using follow dot
    rw [isDot_iff, isAbsolute_of_solid solid, spoken_of_solid solid, segments_of_solid solid]
    simp [dot, isSilent, text']
  · rw [entryPath_of_not_isDot dot]
    exact extends_join text solid

end Spelling

/-! ### Entries -/

/-- The entries that paths lead to. -/
structure Disk where
  Entry : Type
  kind : Entry → EntryKind
  root : Entry
  /-- The directory that relative paths start from. -/
  home : Entry
  /-- The entry that a name in a directory leads to. -/
  child : Entry → List Char → Option Entry
  parent : Entry → Entry
  listing : Entry → Except String (List String)
  mem_listing : ∀ {e names name}, listing e = .ok names → (child e name).isSome → String.ofList name ∈ names
  isEntryName : ∀ {e names name}, listing e = .ok names → name ∈ names → IsEntryName name.toList

namespace Disk

variable (disk : Disk)

/-- The entry that a piece of a path leads to. -/
def step (e : disk.Entry) (piece : List Char) : Option disk.Entry :=
  if disk.kind e = .directory then
    if isSilent piece then some e
    else if piece = ['.', '.'] then some (disk.parent e)
    else disk.child e piece
  else none

/-- The entry that some pieces lead to. -/
def walk (pieces : List (List Char)) (e : disk.Entry) : Option disk.Entry := pieces.foldlM disk.step e

/-- The entry that a path starts from. -/
def start (path : String) : disk.Entry := if isAbsolute path.toList then disk.root else disk.home

/-- The entry that a path leads to. -/
def locate (path : String) : Option disk.Entry :=
  if path.isEmpty then none else disk.walk (segments path.toList) (disk.start path)

end Disk

/-- Whether a snapshot answers what is on a disk. -/
structure Shows (s : Snapshot) (disk : Disk) : Prop where
  kind : ∀ path, (s.kind? path).run = (disk.locate path).map disk.kind
  names : ∀ path e, disk.locate path = some e → disk.kind e = .directory →
    (s.names path).run = disk.listing e

namespace Disk

variable {disk : Disk} {e : disk.Entry} {piece : List Char} {pieces more : List (List Char)}
  {dir name path : String}

/-! ### Walks -/

theorem step_of_not_directory (other : disk.kind e ≠ .directory) : disk.step e piece = none := if_neg other

theorem step_silent (silent : isSilent piece = true) :
    disk.step e piece = if disk.kind e = .directory then some e else none := by
  unfold step
  simp only [if_pos silent]

theorem step_name (isName : IsName piece) :
    disk.step e piece = if disk.kind e = .directory then disk.child e piece else none := by
  unfold step
  rw [isName.speaks, if_neg Bool.false_ne_true, if_neg isName.down]

theorem directory_of_step {next : disk.Entry} (h : disk.step e piece = some next) :
    disk.kind e = .directory := by
  by_contra other
  rw [step_of_not_directory other] at h
  cases h

@[simp] theorem walk_nil : disk.walk [] e = some e := rfl

theorem walk_cons : disk.walk (piece :: pieces) e = (disk.step e piece).bind (disk.walk pieces) := rfl

theorem walk_append : disk.walk (pieces ++ more) e = (disk.walk pieces e).bind (disk.walk more) := by
  unfold walk
  rw [List.foldlM_append]
  rfl

/-- A walk that says something starts from a directory. -/
theorem directory_of_walk {last : disk.Entry} (nonempty : pieces ≠ []) (h : disk.walk pieces e = some last) :
    disk.kind e = .directory := by
  obtain ⟨piece, more, rfl⟩ := List.exists_cons_of_ne_nil nonempty
  obtain ⟨next, step, -⟩ := Option.bind_eq_some_iff.mp h
  exact directory_of_step step

/-- What silent pieces lead to is where they start. -/
theorem walk_silent (silent : ∀ s ∈ pieces, isSilent s = true) (nonempty : pieces ≠ []) :
    disk.walk pieces e = if disk.kind e = .directory then some e else none := by
  induction pieces with
  | nil => exact absurd rfl nonempty
  | cons piece rest ih =>
      obtain ⟨here, later⟩ := List.forall_mem_cons.mp silent
      rw [walk_cons, step_silent here]
      split
      · rename_i directory
        by_cases end' : rest = []
        · rw [end']
          rfl
        · exact (ih later end').trans (if_pos directory)
      · rfl

/-- Silent pieces can be left out of a walk that succeeds. -/
theorem walk_filter {last : disk.Entry} (h : disk.walk pieces e = some last) :
    disk.walk (pieces.filter fun s => !isSilent s) e = some last := by
  induction pieces generalizing e with
  | nil => exact h
  | cons piece rest ih =>
      obtain ⟨next, step, h⟩ := Option.bind_eq_some_iff.mp h
      cases silent : isSilent piece with
      | true =>
          have directory := directory_of_step step
          rw [step_silent silent, if_pos directory] at step
          cases step
          rw [List.filter_cons_of_neg (by simp [silent])]
          exact ih h
      | false =>
          rw [List.filter_cons_of_pos (by simp [silent]), walk_cons, step]
          exact ih h

/-! ### Paths -/

theorem locate_of_ne (text : path ≠ "") :
    disk.locate path = disk.walk (segments path.toList) (disk.start path) :=
  if_neg (by simpa using text)

/-- A walk behind pieces that may end silently. -/
theorem walk_append_silent {silent : List (List Char)} (quiet : ∀ s ∈ silent, isSilent s = true) :
    disk.walk (pieces ++ [piece]) e =
      (disk.walk (pieces ++ silent) e).bind fun last => disk.step last piece := by
  have single (last : disk.Entry) : disk.walk [piece] last = disk.step last piece := by
    rw [walk_cons]
    exact Option.bind_fun_some _
  rw [walk_append, walk_append]
  cases disk.walk pieces e with
  | none => rfl
  | some last =>
      dsimp only [Option.bind_some]
      rw [single]
      by_cases end' : silent = []
      · rw [end']
        rfl
      · rw [walk_silent quiet end']
        split
        · rfl
        · rename_i other
          exact step_of_not_directory other

/-- A path that is joined to another one is followed from where that one leads. -/
theorem locate_join (text : dir ≠ "") (solid : '/' ∉ name.toList) :
    disk.locate (join dir name) = (disk.locate dir).bind fun e => disk.step e name.toList := by
  have relative := isAbsolute_of_solid solid
  obtain ⟨inside, silent, -, quiet, eq, joined⟩ := segments_join text relative
  rw [locate_of_ne text, locate_of_ne (join_ne_empty text relative), joined, eq, start, start,
    isAbsolute_join text relative, segments_of_solid solid]
  exact walk_append_silent quiet

/-- The dot leads to the working directory. -/
theorem locate_of_isDot (dot : IsDot dir) :
    disk.locate dir = if disk.kind disk.home = .directory then some disk.home else none := by
  obtain ⟨relative, silent, -⟩ := isDot_iff.mp dot
  have text : dir ≠ "" := by
    rintro rfl
    cases dot
  rw [locate_of_ne text, start, relative, if_neg Bool.false_ne_true]
  refine walk_silent (fun s mem => ?_) (segments_ne_nil _)
  have quiet := List.filter_eq_nil_iff.mp silent s mem
  simpa using quiet

/-- The path of an entry is followed from its directory. -/
theorem locate_entryPath (text : dir ≠ "") (solid : '/' ∉ name.toList) (follow : CanFollow dir name) :
    disk.locate (entryPath dir name) = (disk.locate dir).bind fun e => disk.step e name.toList := by
  by_cases dot : IsDot dir
  · rw [entryPath_of_isDot dot, locate_of_isDot dot, locate_of_ne (follow dot), start,
      isAbsolute_of_solid solid, if_neg Bool.false_ne_true, segments_of_solid solid]
    change (disk.step disk.home name.toList).bind some = _
    rw [Option.bind_fun_some]
    split
    · rfl
    · rename_i other
      exact step_of_not_directory other
  · rw [entryPath_of_not_isDot dot]
    exact locate_join text solid

end Disk

end ComponentLowering.Batch
