/-
# Inputs

The files that a run is about.  An input is the path of a file or a pattern; the files come in the
order of their paths, each of them once.
-/
import ComponentLowering.Batch.Matches

namespace ComponentLowering.Batch

open ComponentLowering.Report

variable {m : Type → Type} [Monad m] (machine : Machine m)

/-- The files that an input names. -/
def filesOf (input : String) : ExceptT Obstacle m (List String) := do
  if isPattern input then
    match patternParts input with
    | .error e => throw ⟨"invalid glob pattern '" ++ input ++ "'", some e.display⟩
    | .ok parts =>
      let found ← tryCatchThe Obstacle (matchesOf machine input parts) fun o =>
        throw ⟨"failed to read a match of '" ++ input ++ "'", some o.display⟩
      found.filterM fun path => machine.isFile path
  else if ← machine.isFile input then return [input]
  else throw ⟨"input file not found: " ++ input, none⟩

/-- The paths in their order, each of them once. -/
def arrange (paths : List String) : List String :=
  (paths.mergeSort pathLe).eraseRepsBy samePath

/-- The files that some inputs name. -/
def expandInputs (inputs : List String) : ExceptT Obstacle m (List String) := do
  return arrange (← inputs.mapM (filesOf machine)).flatten

end ComponentLowering.Batch
