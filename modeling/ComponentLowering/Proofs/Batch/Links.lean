/-
# Trees with links

A link is a path that is followed along another one.  A tree whose paths are resolved before they are followed is a
file system as long as resolving goes by what a path says and gives names to named paths only.  So two output paths
that have no name in common can lead to one file, and the result that is written last is the one that is left there.
-/
import ComponentLowering.Proofs.Batch.Disks
import ComponentLowering.Proofs.Batch.TreeTargets

namespace ComponentLowering.Batch

open ComponentLowering.Lowering

variable {resolve : String → String} {t t' : FileTree} {path rel : String} {link rest : List (List Char)}

/-! ### Trees through links -/

/-- A tree each of whose paths is resolved before it is followed. -/
def through (resolve : String → String) : Machine (StateM FileTree) where
  kind? path := FileTree.machine.kind? (resolve path)
  names path := FileTree.machine.names (resolve path)
  read path := FileTree.machine.read (resolve path)
  makeDirectories path := FileTree.machine.makeDirectories (resolve path)
  write path content := FileTree.machine.write (resolve path) content
  now := FileTree.machine.now

/-- What there is on a tree, seen through links. -/
def FileTree.volumeThrough (t : FileTree) (resolve : String → String) : Volume Location where
  seen := {
    kind? := fun path => t.seen.kind? (resolve path)
    names := fun path => t.seen.names (resolve path)
    read := fun path => t.seen.read (resolve path)
    makeDirectories := fun path => t.seen.makeDirectories (resolve path)
    write := fun path content => t.seen.write (resolve path) content
    now := t.seen.now }
  file? path := t.fileAt? (resolve path)
  content := t.contentAt

/-- Whether paths are resolved by what they say. -/
structure Resolves (resolve : String → String) : Prop where
  named : ∀ path, (fileName? (resolve path)).isSome → (fileName? path).isSome
  spelled : ∀ a b, SameButDot a b → SameButDot (resolve a) (resolve b)

/-- A tree with links is a file system. -/
theorem Resolves.isFileSystem (h : Resolves resolve) :
    IsFileSystem (through resolve) id fun t => t.volumeThrough resolve where
  sound := fun t => {
    kind := fun path => t.isSound_volume.kind (resolve path)
    named := fun path there => h.named path (t.isSound_volume.named (resolve path) there)
    spelled := fun a b f g same => t.isSound_volume.spelled _ _ f g (h.spelled a b same)
    read := fun path => t.isSound_volume.read (resolve path) }
  seen := ⟨fun _ _ => ⟨rfl, rfl⟩, fun _ _ => ⟨rfl, rfl⟩, fun _ _ => ⟨rfl, rfl⟩, fun _ => rfl⟩
  makes := fun path s s' run => by
    obtain ⟨kinds, files, contents⟩ := FileTree.isFileSystem.makes (resolve path) s s' run
    exact ⟨fun other => kinds (resolve other), fun other => files (resolve other),
      fun other => contents (resolve other)⟩
  writes := fun path text s s' run => by
    obtain ⟨⟨kinds, files, contents⟩, there, content⟩ := FileTree.isFileSystem.writes (resolve path) text s s' run
    exact ⟨⟨fun other => kinds (resolve other), fun other => files (resolve other),
      fun other => contents (resolve other)⟩, there, content⟩

/-! ### A link to a directory -/

/-- The path that goes on from another one along some names. -/
def downFrom (path : String) (names : List (List Char)) : String :=
  names.foldl (fun path name => join path (String.ofList name)) path

theorem downFrom_spec (text : path ≠ "") (areNames : ∀ name ∈ rest, '/' ∉ name ∧ isSilent name = false) :
    isAbsolute (downFrom path rest).toList = isAbsolute path.toList ∧
      spoken (downFrom path rest) = spoken path ++ rest := by
  induction rest generalizing path with
  | nil => exact ⟨rfl, (List.append_nil _).symm⟩
  | cons name rest ih =>
      obtain ⟨⟨solid, speaks⟩, later⟩ := List.forall_mem_cons.mp areNames
      have solid : '/' ∉ (String.ofList name).toList := by simpa using solid
      have relative := isAbsolute_of_solid solid
      obtain ⟨absolute, eq⟩ := ih (join_ne_empty text relative) later
      refine ⟨absolute.trans (isAbsolute_join text relative), eq.trans ?_⟩
      rw [spoken_join text relative, spoken_of_solid solid, String.toList_ofList, speaks, List.append_assoc]
      rfl

/-- The last piece that a path says is its last part, if it has any but the root or a dot. -/
theorem getLast?_filterMap_partOf (pieces : List (List Char)) :
    (pieces.filterMap partOf?).getLast? = (pieces.filter fun s => !isSilent s).getLast?.bind partOf? := by
  induction pieces using List.reverseRecOn with
  | nil => rfl
  | append_singleton front piece ih =>
      rw [List.filterMap_append, List.filter_append, List.getLast?_append, List.getLast?_append, ih]
      cases silent : isSilent piece with
      | true => simp [partOf?, silent]
      | false =>
          obtain ⟨part, eq⟩ : ∃ part, partOf? piece = some part := by
            unfold partOf?
            rw [silent, if_neg Bool.false_ne_true]
            split <;> exact ⟨_, rfl⟩
          simp [eq, silent]

/-- A path has a name exactly if the last piece that it says is one. -/
theorem isSome_fileName?_iff :
    (fileName? path).isSome ↔ ∃ name, (spoken path).getLast? = some name ∧ name ≠ ['.', '.'] := by
  obtain ⟨lead, unnamed, eq⟩ := exists_lead path
  have last : (parts path).getLast? = ((spoken path).getLast?.bind partOf?).or lead.getLast? := by
    rw [eq, List.getLast?_append, getLast?_filterMap_partOf]
    rfl
  unfold fileName?
  rw [last]
  cases here : (spoken path).getLast? with
  | none =>
      rw [Option.bind_none, Option.none_or]
      cases front : lead.getLast? with
      | none => simp
      | some part => rcases unnamed part (List.mem_of_getLast? front) with rfl | rfl <;> simp
  | some name =>
      have speaks : isSilent name = false := by simpa using (List.mem_filter.mp (List.mem_of_getLast? here)).2
      by_cases up : name = ['.', '.']
      · subst up
        simp [partOf?, isSilent]
      · simp [IsName.partOf ⟨speaks, up⟩, up]

/-- Resolves a link below the working directory, and leaves all other paths as they are. -/
def linked (link : List (List Char)) (target : String) (path : String) : String :=
  if isAbsolute path.toList = false ∧ link <+: spoken path then
    downFrom target ((spoken path).drop link.length)
  else path

/-- A link to a directory that can be named can be followed. -/
theorem resolves_linked {target : String} (text : target ≠ "")
    (areNames : ∀ name ∈ link, name ≠ ['.', '.']) (nonempty : link ≠ []) : Resolves (linked link target) := by
  have follow (path : String) (relative : isAbsolute path.toList = false) (isPrefix : link <+: spoken path) :
      isAbsolute (linked link target path).toList = isAbsolute target.toList ∧
        spoken (linked link target path) = spoken target ++ (spoken path).drop link.length := by
    rw [linked, if_pos ⟨relative, isPrefix⟩]
    refine downFrom_spec text fun name mem => ?_
    obtain ⟨mem, speaks⟩ := List.mem_filter.mp (List.mem_of_mem_drop mem)
    exact ⟨not_mem_of_mem_segments mem, by simpa using speaks⟩
  constructor
  case named =>
    intro path named
    by_cases here : isAbsolute path.toList = false ∧ link <+: spoken path
    · obtain ⟨rest, eq⟩ := here.2
      obtain ⟨-, followed⟩ := follow path here.1 here.2
      rw [isSome_fileName?_iff] at named ⊢
      rw [followed, ← eq, List.drop_left, List.getLast?_append] at named
      rw [← eq, List.getLast?_append]
      cases last : rest.getLast? with
      | some name => simpa [last] using named
      | none => exact ⟨link.getLast nonempty, by simp [List.getLast?_eq_some_getLast nonempty],
          areNames _ (List.getLast_mem nonempty)⟩
    · rwa [linked, if_neg here] at named
  case spelled =>
    intro a b same
    by_cases here : isAbsolute a.toList = false ∧ link <+: spoken a
    · have there : isAbsolute b.toList = false ∧ link <+: spoken b := by rwa [← same.absolute, ← same.spoken]
      obtain ⟨absolute, eq⟩ := follow a here.1 here.2
      obtain ⟨absolute', eq'⟩ := follow b there.1 there.2
      exact ⟨by rw [absolute, absolute'], by rw [eq, eq', same.spoken]⟩
    · have there : ¬(isAbsolute b.toList = false ∧ link <+: spoken b) := by rwa [← same.absolute, ← same.spoken]
      rwa [linked, linked, if_neg here, if_neg there]

/-! ### Results behind a link -/

/-- In the output directory one directory is a link to another one. -/
def intoSameDirectory : String → String := linked ["out".toList, "y".toList] "out/x"

theorem isFileSystem_intoSameDirectory :
    IsFileSystem (through intoSameDirectory) id fun t => t.volumeThrough intoSameDirectory :=
  (resolves_linked (by decide) (by decide) (by decide)).isFileSystem

/-- The output paths of two results are different, but by the link they lead to one file, so results with different
codes are not both left there. -/
theorem not_holdOwn_intoSameDirectory {a b : Output} (differ : a.code ≠ b.code) (t : FileTree) :
    samePath (outputPath "out" "x/a.ts") (outputPath "out" "y/a.ts") = false ∧
      ¬HoldOwn (t.volumeThrough intoSameDirectory) "out" [("x/a.ts", a), ("y/a.ts", b)] := by
  refine ⟨by decide, fun own => differ ?_⟩
  obtain ⟨f, leads, content⟩ := own ("x/a.ts", a) (by simp)
  obtain ⟨g, leads', content'⟩ := own ("y/a.ts", b) (by simp)
  have same : intoSameDirectory (outputPath "out" "y/a.ts") = intoSameDirectory (outputPath "out" "x/a.ts") := by
    decide
  have leads' : t.fileAt? (intoSameDirectory (outputPath "out" "y/a.ts")) = some g := leads'
  rw [same] at leads'
  have one := leads.symm.trans leads'
  cases one
  exact toUTF8_inj (content.symm.trans content')

end ComponentLowering.Batch
