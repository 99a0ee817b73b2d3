/-
# The command

Runs a command on the files of the machine it is started on.
-/
import ComponentLowering.CommandLine.Run

namespace ComponentLowering.CommandLine

open ComponentLowering.Batch

/-- The text of a fault of the operating system. -/
def faultText (fault : IO.Error) : String :=
  match fault with
  | .noFileOrDirectory _ code details => withCode details code
  | .noSuchThing _ code details => withCode details code
  | .permissionDenied _ code details => withCode details code
  | .alreadyExists _ code details => withCode details code
  | .inappropriateType _ code details => withCode details code
  | .invalidArgument _ code details => withCode details code
  | .resourceExhausted _ code details => withCode details code
  | .otherError code details => withCode details code
  | other => toString other
where
  /-- Details with the code of the system. -/
  withCode (details : String) (code : UInt32) : String :=
    let details := if details.isEmpty then defaultDetails code else details
    details ++ " (os error " ++ toString code ++ ")"
  /-- The details of the most common faults. -/
  defaultDetails : UInt32 → String
    | 2 => "No such file or directory"
    | 13 => "Permission denied"
    | 17 => "File exists"
    | 20 => "Not a directory"
    | 21 => "Is a directory"
    | _ => "Unknown error"

/-- Runs an action and gives the text of its fault. -/
def told {α : Type} (action : IO α) : IO (Except String α) := do
  match ← action.toBaseIO with
  | .ok value => return .ok value
  | .error fault => return .error (faultText fault)

/-- The kind of a file. -/
def kindOf : IO.FS.FileType → EntryKind
  | .file => .file
  | .dir => .directory
  | _ => .other

/-- The text of a file. -/
def readText (path : String) : IO (Except String String) := do
  match ← told (IO.FS.readBinFile path) with
  | .error fault => return .error fault
  | .ok content =>
    match String.fromUTF8? content with
    | some text => return .ok text
    | none => return .error "stream did not contain valid UTF-8"

/-- Makes a directory and those above it. -/
def makeDirectories (path : String) : IO PUnit :=
  if path.isEmpty then pure ⟨⟩ else IO.FS.createDirAll path

/-- The machine that the program is started on. -/
def thisMachine : Machine IO where
  kind? path := do
    match ← (do (← IO.FS.realPath path).metadata : IO IO.FS.Metadata).toBaseIO with
    | .ok found => return some (kindOf found.type)
    | .error _ => return none
  names path := told do
    let entries ← (← IO.FS.realPath path).readDir
    return (entries.map (·.fileName)).toList
  read := readText
  makeDirectories path := told (makeDirectories path)
  write path content := told (IO.FS.writeFile path content)
  now := IO.monoNanosNow

end ComponentLowering.CommandLine

/-- Runs the command with the given arguments. -/
def main (arguments : List String) : IO UInt32 := do
  let result ← ComponentLowering.CommandLine.run ComponentLowering.CommandLine.thisMachine arguments
  for line in result.errors do
    IO.eprintln line
  IO.print result.output
  return result.exit.toUInt32
