/-
# Spellings of found paths

A path that is found for a pattern has no dot at its front: the entries of the working directory are named without
it.  The one exception is a step upwards that a part with wildcards takes from there, which is spelled behind a dot.
So nothing is claimed of paths that begin with such a step, unless the pattern spells it out.
-/
import ComponentLowering.Proofs.Batch.PatternPaths

namespace ComponentLowering.Batch

variable {s : Snapshot} {disk : Disk} {target : disk.Entry} {dir entry path : String} {name : List Char}
  {rest : List PatternPart} {tokens : List PatternToken} {found here : List String}

theorem Undotted.not_isDot (h : Undotted path) : ¬IsDot path := fun dot => h (isDot_iff.mp dot).2.2

/-- Whether the parts of a pattern begin with a step upwards, but for dots and empty parts in front of it. -/
inductive Climbs : List PatternPart → Prop
  | up {rest : List PatternPart} : Climbs (.literal ['.', '.'] :: rest)
  | silent {name : List Char} {rest : List PatternPart} :
      isSilent name = true → Climbs rest → Climbs (.literal name :: rest)

/-- Whether what is found from the dot, or from a path without one at its front, has none at its front.  From the
dot a path that begins with a step upwards only counts if the parts of the pattern do so as well. -/
def IsUndotted (disk : Disk) (target : disk.Entry) (parts : List PatternPart) (dir : String)
    (found : List String) : Prop :=
  IsDot dir ∨ Undotted dir → ∀ path ∈ found, disk.locate path = some target →
    (IsDot dir → (spoken path).head? = some ['.', '.'] → Climbs parts) → Undotted path

theorem isUndotted_nil (isFile : disk.kind target ≠ .directory) : IsUndotted disk target [] dir [dir] := by
  intro front path mem leads _
  obtain rfl := List.mem_singleton.mp mem
  refine front.resolve_left fun dot => ?_
  rw [Disk.locate_of_isDot dot] at leads
  split at leads <;> cases leads
  exact isFile ‹_›

theorem IsEntry.isDot_iff (h : IsEntry disk dir name entry) : IsDot entry ↔ IsDot dir ∧ isSilent name = true := by
  have isDot := h.isDot
  rwa [String.toList_ofList] at isDot

/-- Behind a dot at the front the dot is left out, and dots behind it stay at the place where they are. -/
theorem IsUndotted.literal (isEntry : IsEntry disk dir name (entryPath dir (String.ofList name)))
    (text : dir ≠ "") (h : IsUndotted disk target rest (entryPath dir (String.ofList name)) found) :
    IsUndotted disk target (.literal name :: rest) dir found := by
  intro front path mem leads climbs
  refine h ?front path mem leads fun dot head => ?climbs
  case front =>
    cases silent : isSilent name with
    | false => exact .inr (undotted_entryPath text isEntry.solid silent front)
    | true =>
        refine front.imp (fun dot => isEntry.isDot_iff.mpr ⟨dot, silent⟩) fun undotted => ?_
        rw [entryPath_of_not_isDot undotted.not_isDot]
        exact (undotted_join text (isAbsolute_of_solid (by simpa using isEntry.solid))).mpr undotted
  case climbs =>
    obtain ⟨here, silent⟩ := isEntry.isDot_iff.mp dot
    cases climbs here head with
    | up => cases silent
    | silent _ climbs => exact climbs

/-- Parts with wildcards do not climb, so what counts of what they find from the dot begins with a name. -/
theorem IsUndotted.wildcard (shows : Shows s disk) (text : dir ≠ "") (follows : Follows s dir tokens name entry)
    (exact' : IsExact disk target rest entry here) (h : IsUndotted disk target rest entry here) :
    IsUndotted disk target (.wildcard tokens :: rest) dir here := by
  intro front path mem leads climbs
  have isEntry : IsEntry disk dir name entry := follows.isEntry shows text
  have level (dot : IsDot dir) (head : (spoken path).head? = some ['.', '.']) : False := nomatch climbs dot head
  refine h ?_ path mem leads fun dot head => (level (isEntry.isDot_iff.mp dot).1 head).elim
  cases follows with
  | name listed mem _ =>
      have isName := (sortedNames_ok shows listed).1 _ mem
      have undotted := undotted_entryPath text isName.solid isName.speaks front
      rw [String.ofList_toList] at undotted
      exact .inr undotted
  | step isStep _ _ =>
      by_cases dot : IsDot dir
      · refine .inl (isEntry.isDot_iff.mpr ⟨dot, ?_⟩)
        rcases isStep with rfl | rfl
        · refine (level dot ?_).elim
          obtain ⟨pieces, isFound, -, -⟩ := exact'.sound path mem leads
          rw [isFound.spoken, isEntry.spoken_eq, (isDot_iff.mp dot).2.1]
          rfl
        · rfl
      · exact .inr ((undotted_join text (isAbsolute_of_solid (by simpa using isEntry.solid))).mpr
          (front.resolve_left dot))

/-- The parts of a pattern find files under paths without a dot at the front. -/
theorem isUndotted_pathsFrom (shows : Shows s disk) (isFile : disk.kind target ≠ .directory)
    (parts : List PatternPart) (dir : String) (text : dir ≠ "")
    (solid : ∀ name, .literal name ∈ parts → '/' ∉ name) {found : List String}
    (run : answer (pathsFrom s parts dir) = .ok found) : IsUndotted disk target parts dir found := by
  match parts with
  | [] =>
      rw [pathsFrom] at run
      cases run
      exact isUndotted_nil isFile
  | .literal name :: rest =>
      obtain ⟨isSolid, solid⟩ : '/' ∉ name ∧ ∀ name, .literal name ∈ rest → '/' ∉ name :=
        ⟨solid name (List.mem_cons_self ..), fun name mem => solid name (List.mem_cons_of_mem _ mem)⟩
      rw [answer_pathsFrom_literal shows text isSolid] at run
      split at run
      · rename_i there
        have follow : CanFollow dir (String.ofList name) := by
          intro dot empty
          rw [entryPath_of_isDot dot, empty] at there
          cases there
        have isEntry := isEntry_entryPath disk text isSolid follow
        exact (isUndotted_pathsFrom shows isFile rest _ isEntry.text solid run).literal isEntry text
      · cases run
        exact fun _ path mem => absurd mem List.not_mem_nil
  | .wildcard tokens :: rest =>
      have solid : ∀ name, .literal name ∈ rest → '/' ∉ name :=
        fun name mem => solid name (List.mem_cons_of_mem _ mem)
      obtain ⟨-, mem_found, -⟩ := answer_pathsFrom_wildcard_ok run
      intro front path mem
      obtain ⟨name, entry, here, follows, ran, mem⟩ := (mem_found path).mp mem
      have text' : entry ≠ "" := (follows.isEntry shows text).text
      have behind := isUndotted_pathsFrom shows isFile rest entry text' solid ran
      exact behind.wildcard shows text follows (isExact_pathsFrom shows isFile rest entry text' solid ran)
        front path mem
  | [.directories] =>
      rw [pathsFrom] at run
      intro front path mem _ _
      obtain ⟨dirs, name, entry, here, visited, ran, mem⟩ := exists_of_mem_visitBelow shows text run mem
      obtain ⟨isDirectory, -, ran⟩ := answer_bind_ok ran
      cases isDirectory with
      | false =>
          cases ran
          cases mem
      | true =>
          cases ran
          obtain rfl := List.mem_singleton.mp mem
          exact visited.below.undotted front
  | .directories :: part :: rest =>
      rw [pathsFrom] at run
      intro front path mem leads _
      obtain ⟨dirs, name, entry, here, visited, ran, mem⟩ := exists_of_mem_visitBelow shows text run mem
      have undotted := visited.below.undotted front
      split at ran
      · have behind := isUndotted_pathsFrom shows isFile rest entry visited.below.text
          (fun name mem => solid name (List.mem_cons_of_mem _ (List.mem_cons_of_mem _ mem))) ran
        exact behind (.inr undotted) path mem leads fun dot => absurd dot undotted.not_isDot
      · cases ran
        cases mem

end ComponentLowering.Batch
