/-
# Trees as disks

A file tree in memory is a disk whose entries are its locations, if each of its entries has names that can be
spelled in a path and stands in a directory, and if the working directory is among its entries.  All of its
directories can be listed.
-/
import ComponentLowering.Proofs.Batch.Disks
import Mathlib.Data.List.Infix

namespace ComponentLowering.Batch

namespace FileTree

variable {t : FileTree} {place : Location} {name : List Char} {path : String}

/-- Whether the entries of a tree can be reached by paths. -/
structure IsSound (t : FileTree) : Prop where
  names : ∀ e ∈ t.entries, ∀ name ∈ e.1, IsEntryName name
  inDirectories : ∀ e ∈ t.entries, t.kindAt e.1.dropLast = some .directory
  homeIsListed : ∀ place ∈ t.home.inits, place ≠ [] → place ∈ t.entries.map Prod.fst

instance (t : FileTree) : Decidable t.IsSound :=
  decidable_of_iff (_ ∧ _ ∧ _) ⟨fun h => ⟨h.1, h.2.1, h.2.2⟩, fun h => ⟨h.names, h.inDirectories, h.homeIsListed⟩⟩

/-- What is at a location has an entry, unless it is the root. -/
theorem IsSound.exists_entry (sound : t.IsSound) (nonempty : place ≠ []) (there : (t.find? place).isSome) :
    ∃ e ∈ t.entries, e.1 = place := by
  unfold find? at there
  split at there
  · rename_i above
    rw [List.isPrefixOf_iff_prefix, ← List.mem_inits] at above
    exact List.mem_map.mp (sound.homeIsListed place above nonempty)
  · obtain ⟨entry, found⟩ := Option.isSome_iff_exists.mp there
    obtain ⟨before, after, eq, -⟩ := List.lookup_eq_some_iff.mp found
    exact ⟨(place, entry), by simp [eq], rfl⟩

theorem mem_namesAt : name ∈ t.namesAt place ↔ ∃ e ∈ t.entries, e.1 = place ++ [name] := by
  unfold namesAt
  rw [List.mem_filterMap]
  refine exists_congr fun e => and_congr_right fun _ => ?_
  constructor
  · intro eq
    split at eq
    · rename_i above
      obtain ⟨front, eq⟩ := List.getLast?_eq_some_iff.mp eq
      rw [eq, List.dropLast_concat, beq_iff_eq] at above
      rw [eq, above]
    · cases eq
  · intro eq
    simp [eq]

/-- The entries of a tree, as those of a disk. -/
@[reducible]
def disk (t : FileTree) (sound : t.IsSound) : Disk where
  Entry := Location
  kind place := (t.kindAt place).getD .other
  root := []
  home := t.home
  child place name := if (t.find? (place ++ [name])).isSome then some (place ++ [name]) else none
  parent := List.dropLast
  listing place := .ok ((t.namesAt place).map String.ofList)
  mem_listing := by
    intro place names name listed next
    cases listed
    split at next
    · rename_i there
      exact List.mem_map_of_mem (mem_namesAt.mpr (sound.exists_entry (by simp) there))
    · cases next
  isEntryName := by
    intro place names name listed mem
    cases listed
    obtain ⟨name, isListed, rfl⟩ := List.mem_map.mp mem
    obtain ⟨e, isEntry, eq⟩ := mem_namesAt.mp isListed
    rw [String.toList_ofList]
    exact sound.names e isEntry name (by simp [eq])

theorem kind_disk (sound : t.IsSound) (place : Location) :
    (t.disk sound).kind place = .directory ↔ t.find? place = some .directory := by
  change (t.kindAt place).getD .other = .directory ↔ _
  rw [← kindAt_eq_directory]
  cases t.kindAt place <;> simp

theorem IsSound.isSome_dropLast (sound : t.IsSound) (there : (t.find? place).isSome) :
    (t.find? place.dropLast).isSome := by
  by_cases top : place = []
  · rw [top, List.dropLast_nil, find?_of_isPrefix List.nil_prefix]
    rfl
  · obtain ⟨e, isEntry, rfl⟩ := sound.exists_entry top there
    have directory := sound.inDirectories e isEntry
    unfold kindAt at directory
    obtain ⟨entry, found, -⟩ := Option.map_eq_some_iff.mp directory
    rw [found]
    rfl

/-- A location, if something is there. -/
def present (t : FileTree) (place : Location) : Option Location :=
  if (t.find? place).isSome then some place else none

/-- From a place with nothing there a walk comes to nothing. -/
theorem foldlM_step_none (nothing : t.find? place = none) (pieces : List (List Char)) :
    (pieces.foldlM t.step place).toOption.bind t.present = none := by
  cases pieces with
  | nil =>
      change t.present place = none
      rw [present, nothing]
      rfl
  | cons piece rest =>
      rw [List.foldlM_cons]
      unfold FileTree.step
      rw [nothing]
      rfl

/-- A walk on a tree is one on its disk, if something is there at its end. -/
theorem walk_disk (sound : t.IsSound) (pieces : List (List Char)) (there : (t.find? place).isSome) :
    (t.disk sound).walk pieces place = (pieces.foldlM t.step place).toOption.bind t.present := by
  induction pieces generalizing place with
  | nil =>
      change some place = t.present place
      rw [present, if_pos there]
  | cons piece rest ih =>
      rw [Disk.walk_cons, List.foldlM_cons]
      obtain ⟨entry, found⟩ := Option.isSome_iff_exists.mp there
      cases entry with
      | file content =>
          have other : (t.disk sound).kind place ≠ .directory := by
            rw [ne_eq, kind_disk, found]
            simp
          rw [Disk.step_of_not_directory other]
          unfold FileTree.step
          rw [found]
          rfl
      | directory =>
          have directory := (kind_disk sound place).mpr found
          unfold FileTree.step Disk.step
          rw [found, if_pos directory]
          by_cases silent : isSilent piece = true
          · rw [if_pos silent, if_pos silent]
            exact ih there
          · rw [if_neg silent, if_neg silent]
            by_cases up : piece = ['.', '.']
            · rw [if_pos up, if_pos (by simpa using up)]
              exact ih (sound.isSome_dropLast there)
            · rw [if_neg up, if_neg (by simpa using up)]
              change (if (t.find? (place ++ [piece])).isSome then some (place ++ [piece]) else none).bind _ =
                (rest.foldlM t.step (place ++ [piece])).toOption.bind t.present
              by_cases next : (t.find? (place ++ [piece])).isSome = true
              · rw [if_pos next]
                exact ih next
              · -- The tree only finds out with the next piece that nothing is there, the disk at once.
                rw [if_neg next]
                exact (foldlM_step_none (Option.not_isSome_iff_eq_none.mp next) rest).symm

theorem locate_disk (sound : t.IsSound) (path : String) :
    (t.disk sound).locate path = (t.locate path).toOption.bind t.present := by
  unfold Disk.locate FileTree.locate
  split
  · rfl
  · refine walk_disk sound _ ?_
    have above : (t.disk sound).start path <+: t.home := by
      change (if _ then [] else t.home) <+: t.home
      split
      · exact List.nil_prefix
      · exact List.prefix_rfl
    rw [find?_of_isPrefix above]
    rfl

theorem entryAt_of_locate (leads : t.locate path = .ok place) :
    t.entryAt path =
      match t.find? place with
      | some entry => .ok entry
      | none => .error .missing := by
  unfold entryAt
  rw [leads]
  rfl

/-- What a path leads to on a tree is what it leads to on its disk. -/
theorem toOption_entryAt (sound : t.IsSound) (path : String) :
    (t.entryAt path).toOption = ((t.disk sound).locate path).bind t.find? := by
  rw [locate_disk]
  cases leads : t.locate path with
  | error fault =>
      unfold entryAt
      rw [leads]
      rfl
  | ok place =>
      rw [entryAt_of_locate leads]
      change _ = (t.present place).bind t.find?
      unfold present
      cases found : t.find? place with
      | none => rfl
      | some entry => exact found.symm

/-- Where a path leads on the disk of a tree. -/
theorem exists_of_locate_disk (sound : t.IsSound) (leads : (t.disk sound).locate path = some place) :
    ∃ entry, t.locate path = .ok place ∧ t.find? place = some entry := by
  rw [locate_disk] at leads
  obtain ⟨place', leads, there⟩ := Option.bind_eq_some_iff.mp leads
  unfold present at there
  split at there <;> cases there
  rename_i there
  obtain ⟨entry, found⟩ := Option.isSome_iff_exists.mp there
  refine ⟨entry, ?_, found⟩
  cases eq : t.locate path with
  | error fault =>
      rw [eq] at leads
      cases leads
  | ok place' =>
      rw [eq] at leads
      cases leads
      rfl

/-- The snapshot of a tree shows its disk. -/
theorem shows_seen (sound : t.IsSound) : Shows t.seen (t.disk sound) where
  kind := by
    intro path
    change (t.entryAt path).toOption.map TreeEntry.kind = _
    rw [toOption_entryAt sound]
    cases leads : (t.disk sound).locate path with
    | none => rfl
    | some place =>
        obtain ⟨entry, -, found⟩ := exists_of_locate_disk sound leads
        change (t.find? place).map TreeEntry.kind = some ((t.kindAt place).getD .other)
        rw [kindAt, found]
        rfl
  names := by
    intro path place leads directory
    obtain ⟨entry, leads, -⟩ := exists_of_locate_disk sound leads
    have entry := entryAt_of_locate leads
    rw [(kind_disk sound place).mp directory] at entry
    change told (t.entryAt path >>= _) = _
    rw [entry, leads]
    rfl

end FileTree

end ComponentLowering.Batch
