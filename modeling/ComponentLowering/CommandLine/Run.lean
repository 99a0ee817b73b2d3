/-
# Runs

What a command does on a machine: it lowers files and shows or writes the results.
-/
import ComponentLowering.Batch.Inputs
import ComponentLowering.Batch.Outcome
import ComponentLowering.CommandLine.Arguments
import ComponentLowering.Settings.OptionsText

namespace ComponentLowering.CommandLine

open ComponentLowering.Batch ComponentLowering.Report ComponentLowering.Settings

/-- The version of the program. -/
def version : String := "0.1.0"

/-- The line that shows how the program is used. -/
def usageLine : String := "Usage: lazyc [OPTIONS] <FILES>..."

/-- The text that explains the program. -/
def helpText : String := "\n".intercalate [
  "Lazy component compiler (Rust implementation)",
  "",
  usageLine,
  "",
  "Arguments:",
  "  <FILES>...  Source files or glob patterns",
  "",
  "Options:",
  "  -c, --config <PATH>              JSON file with transform options",
  "      --core-import-path <MODULE>  Module the runtime functions are imported from",
  "      --module <KIND>              Output module convention [possible values: esm, cjs]",
  "      --component-export <KIND>    How rewritten classes are exported [possible values: lazy, "
    ++ "customelement]",
  "      --style <MODE>               Style hoisting mode [possible values: static, none]",
  "  -o, --out-dir <DIR>              Write outputs here instead of stdout",
  "  -v, --verbose                    Log every class",
  "  -h, --help                       Print help",
  "  -V, --version                    Print version",
  ""]

/-- What a command leaves behind: its exit code, the text on the standard output and the lines on
the standard error stream. -/
structure Result where
  exit : Nat
  output : String := ""
  errors : List String := []
deriving DecidableEq, Repr, Inhabited

/-- The result of a command that could not go on. -/
def Result.stopped (errors : List String) (message : String) : Result :=
  { exit := 1, errors := errors ++ ["Error: " ++ message] }

/-- The options of a run: those of the configuration, but for the ones that are given. -/
def Invocation.over (i : Invocation) (config : Options) : Options where
  corePath := i.corePath.getD config.corePath
  convention := i.convention.getD config.convention
  componentExport := i.componentExport.getD config.componentExport
  style := i.style.getD config.style

/-- The options that the text of a configuration sets. -/
def configured (text : String) : Except String Options :=
  (Options.ofText text.toList).mapError fun fault => fault.display text.toList

/-- The lines that report an outcome. -/
def outcomeLines (o : Outcome) : List String :=
  match o.result with
  | .ok output => output.report.diagnostics.map fun d => o.path ++ ": " ++ d.display
  | .error failure => ["Error: " ++ failure.display]

/-- Whether an outcome makes the run fail. -/
def isFailed (o : Outcome) : Bool :=
  match o.result with
  | .ok output => output.report.hasErrors
  | .error _ => true

/-- The text that shows results.  Each of several ones is headed by its path. -/
def shownCode (outcomes : List Outcome) : String :=
  String.join <| outcomes.map fun o =>
    match o.result with
    | .ok output =>
      (if outcomes.length > 1 then "// " ++ o.path ++ "\n" else "") ++ output.code ++ "\n"
    | .error _ => ""

variable {m : Type → Type} [Monad m] (machine : Machine m)

/-- The options of a run. -/
def resolveOptions (i : Invocation) : ExceptT String m Options := do
  match i.config with
  | none => return i.over {}
  | some path =>
    let text ← ExceptT.mk (machine.read path)
    let config ← ExceptT.mk (pure (configured text))
    return i.over config

/-- Lowers the files and shows or writes the results. -/
def compile (i : Invocation) (options : Options) (files : List String) : m Result := do
  let (outcomes, log) ← transformFiles machine options files
  let shown := log.filterMap (Logger.ofVerbosity i.verbose).shown?
  let errors := shown ++ outcomes.flatMap outcomeLines
  let exit := if outcomes.any isFailed then 1 else 0
  match i.outDir with
  | none => return { exit, output := shownCode outcomes, errors }
  | some outDir =>
    match ← writeOutputs machine outDir outcomes with
    | .error obstacle => return .stopped errors obstacle.display
    | .ok written =>
      let last := "Wrote " ++ Lowering.count written.length ++ " file(s) to " ++ outDir
      return { exit, errors := errors ++ [last] }

/-- Does what an invocation asks for. -/
def invoke (i : Invocation) : m Result := do
  match ← resolveOptions machine i with
  | .error message => return .stopped [] message
  | .ok options =>
    match ← expandInputs machine i.files with
    | .error obstacle => return .stopped [] obstacle.display
    | .ok [] => return .stopped [] "no input files matched"
    | .ok files => compile machine i options files

/-- Does what the arguments of a command ask for. -/
def run (arguments : List String) : m Result := do
  match Request.ofArguments arguments with
  | .error fault =>
    return { exit := 2, errors := fault.display ++ ["", usageLine, "",
      "For more information, try '--help'."] }
  | .ok .showVersion => return { exit := 0, output := "lazyc " ++ version ++ "\n" }
  | .ok .showHelp => return { exit := 0, output := helpText }
  | .ok (.run i) => invoke machine i

end ComponentLowering.CommandLine
