/-
# Outcomes

Lowers the files of a run, each on its own, and writes the results.
-/
import ComponentLowering.Batch.Elapsed
import ComponentLowering.Batch.Machine
import ComponentLowering.Batch.Path
import ComponentLowering.Lowering.LoweredModule
import ComponentLowering.Report.Obstacle

namespace ComponentLowering.Batch

open ComponentLowering.Lowering ComponentLowering.Report ComponentLowering.Settings

/-- Why a file has no result. -/
inductive FileFailure where
  | unread (obstacle : Obstacle)
  | failed (failure : Failure)
deriving DecidableEq, Repr, Inhabited

/-- The line that a file without a result is reported by. -/
def FileFailure.display : FileFailure → String
  | unread obstacle => obstacle.display
  | failed failure => failure.display

/-- What became of a file. -/
structure Outcome where
  path : String
  result : Except FileFailure Output

variable {m : Type → Type} [Monad m] (machine : Machine m)

/-- Lowers a file. -/
def transformFile (options : Options) (path : String) : m (Outcome × Log) := do
  match ← machine.read path with
  | .error fault =>
    return ({ path, result := .error (.unread ⟨"failed to read " ++ path, some fault⟩) }, [])
  | .ok source =>
    let (result, log) := runLowering options path source
    return ({ path, result := result.mapError .failed },
      { level := .debug, message := "lazy: " ++ path } :: log)

/-- Lowers files in their order. -/
def transformFiles (options : Options) (paths : List String) : m (List Outcome × Log) := do
  let start ← machine.now
  let outcomes ← paths.mapM (transformFile machine options)
  let finish ← machine.now
  let first := "Transforming " ++ count paths.length ++ " file(s) in parallel..."
  let last := "Transform finished in " ++ elapsedText (finish - start)
  return (outcomes.map (·.1), [{ level := .info, message := first }] ++ outcomes.flatMap (·.2)
    ++ [{ level := .info, message := last }])

/-- Writes the result for an input, and gives the path it went to. -/
def writeOutput (outDir : String) (input : String) (output : Output) :
    ExceptT Obstacle m String := do
  let target := outputPath outDir input
  if let some directory := parent? target then
    if let .error fault ← machine.makeDirectories directory then
      throw ⟨"failed to create directory " ++ directory, some fault⟩
  match ← machine.write target output.code with
  | .ok _ => return target
  | .error fault => throw ⟨"failed to write " ++ target, some fault⟩

/-- Writes all results, and gives the paths they went to. -/
def writeOutputs (outDir : String) (outcomes : List Outcome) :
    ExceptT Obstacle m (List String) := do
  let results := outcomes.filterMap fun o => o.result.toOption.map fun output => (o.path, output)
  results.mapM fun (input, output) => writeOutput machine outDir input output

end ComponentLowering.Batch
