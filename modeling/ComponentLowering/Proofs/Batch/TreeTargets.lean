/-
# Targets on trees

Without links an output path leads from where the output directory leads, down along the names that it adds.  So
once results were written, targets are one file exactly if they add the same names, and different output paths are
different files as long as the output directory has a text.
-/
import ComponentLowering.Proofs.Batch.InsidePaths
import ComponentLowering.Proofs.Batch.TreeFiles
import Mathlib.Data.List.Pairwise

namespace ComponentLowering.Batch.FileTree

open ComponentLowering.Lowering

variable {t t' : FileTree} {home place : Location} {dir path : String} {results : List (String × Output)}
  {r : String × Output}

/-! ### Places of targets -/

theorem foldl_onward_names {names : List (List Char)} (areNames : ∀ name ∈ names, IsName name) :
    names.foldl onward place = place ++ names := by
  induction names generalizing place with
  | nil => exact (List.append_nil place).symm
  | cons name rest ih =>
      obtain ⟨here, later⟩ := List.forall_mem_cons.mp areNames
      rw [List.foldl_cons, onward_name here, ih later, List.append_assoc, List.singleton_append]

/-- Where an output path leads. -/
theorem placeFrom_outputPath (dir : String) (named : (fileName? path).isSome) :
    placeFrom home (outputPath dir path) = placeFrom home dir ++ insideNames path := by
  have areNames : ∀ name ∈ insideNames path, IsName name := by
    obtain ⟨rel, descent, names, -⟩ := exists_outputPath_eq dir named
    rw [← names]
    intro name mem
    obtain ⟨mem, speaks⟩ := List.mem_filter.mp mem
    exact ⟨by simpa using speaks, descent.down name mem⟩
  rw [placeFrom_eq, placeFrom_eq, isAbsolute_outputPath dir named, spoken_outputPath dir named, List.foldl_append,
    foldl_onward_names areNames]

/-! ### Files of targets -/

/-- What was written to on a tree is a file. -/
theorem isSome_of_isWritten (there : t.volume.IsWritten path) : (t.fileAt? path).isSome := by
  obtain ⟨kind, there, other⟩ := there
  obtain ⟨place, leads, there⟩ := kind_seen_eq_some.mp there
  obtain ⟨entry, found, rfl⟩ := Option.map_eq_some_iff.mp there
  cases entry with
  | directory => exact absurd rfl other
  | file content => exact Option.isSome_iff_exists.mpr ⟨place, fileAt?_eq_some.mpr ⟨leads, there⟩⟩

/-- Targets that are one file add the same names to the output directory. -/
theorem insideNames_eq_of_file? {a b : String} (named : (fileName? a).isSome) (named' : (fileName? b).isSome)
    (there : (t.fileAt? (outputPath dir b)).isSome)
    (same : t.fileAt? (outputPath dir a) = t.fileAt? (outputPath dir b)) : insideNames a = insideNames b := by
  obtain ⟨place, isFile'⟩ := Option.isSome_iff_exists.mp there
  have isFile := same.trans isFile'
  have leads := locate_eq (fileAt?_eq_some.mp isFile).1
  have leads' := locate_eq (fileAt?_eq_some.mp isFile').1
  rw [placeFrom_outputPath dir named] at leads
  rw [placeFrom_outputPath dir named', leads] at leads'
  exact List.append_cancel_left leads'

/-- Different output paths inside a directory with a text are different files. -/
theorem hasOwnFile_of_differ (wrote : WroteAll dir results t.volume t'.volume)
    (named : ∀ r ∈ results, (fileName? r.1).isSome) (text : dir ≠ "")
    (differ : results.Pairwise fun a b => samePath (outputPath dir a.1) (outputPath dir b.1) = false) :
    ∀ r ∈ results, HasOwnFile t'.volume dir results r := by
  intro r mem
  have there := isSome_of_isWritten (wrote.there r mem)
  refine ⟨there, fun r' mem' same => ?_⟩
  have names := insideNames_eq_of_file? (named r' mem') (named r mem) there same
  have samePath : samePath (outputPath dir r'.1) (outputPath dir r.1) = true := by
    have undotted (path : String) : keptDot dir path = [] := if_neg fun h => text h.1
    rw [Batch.samePath, beq_iff_eq, parts_outputPath dir (named r' mem'), parts_outputPath dir (named r mem),
      insideParts_eq_iff.mpr ⟨names, by rw [undotted, undotted]⟩]
  have symmetric : Std.Symm fun a b : String × Output =>
      Batch.samePath (outputPath dir a.1) (outputPath dir b.1) = false := ⟨fun a b h => by
    rw [← h, Batch.samePath, Batch.samePath, Bool.eq_iff_iff, beq_iff_eq, beq_iff_eq, eq_comm]⟩
  by_contra other
  have apart := differ.forall mem' mem other
  rw [samePath] at apart
  cases apart

end ComponentLowering.Batch.FileTree
