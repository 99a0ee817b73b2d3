/-
# Matches

The paths that a pattern names on a machine.
-/
import ComponentLowering.Batch.Machine
import ComponentLowering.Batch.Pattern
import ComponentLowering.Report.Obstacle

namespace ComponentLowering.Batch

open ComponentLowering.Report

variable {m : Type → Type} [Monad m] (machine : Machine m)

/-- A bound on the depth of directories.  A path is no longer than that. -/
def depthBound : Nat := 4096

/-- The order of names: by their characters. -/
def nameLe (a b : String) : Bool := (List.compareLex compare a.toList b.toList).isLE

/-- The path of an entry of a directory.  Those of the working directory are named without it. -/
def entryPath (directory name : String) : String :=
  if samePath directory "." then name else join directory name

/-- The names in a directory in their order, none in anything else. -/
def sortedNames (directory : String) : ExceptT Obstacle m (List String) := do
  if !(← machine.isDirectory directory) then return []
  match ← machine.names directory with
  | .ok names => return names.mergeSort nameLe
  | .error fault =>
    throw ⟨"attempting to read `" ++ directory ++ "` resulted in an error", some fault⟩

/-- Visits all entries below a directory, those of a directory right after it. -/
def visitBelow (visit : String → String → ExceptT Obstacle m (List String)) :
    Nat → String → ExceptT Obstacle m (List String)
  | 0, _ => return []
  | depth + 1, directory => do
    let found ← (← sortedNames machine directory).mapM fun name => do
      let path := entryPath directory name
      let here ← visit name path
      let below ← visitBelow visit depth path
      return here ++ below
    return found.flatten

/-- Whether a wildcard also stands for one of the two directories that every directory knows. -/
def fitsSpecial (tokens : List PatternToken) (name : List Char) : Bool :=
  tokens.head? == some (.char '.') && Pattern.fits tokens name

/-- The paths that the parts of a pattern name, seen from a path. -/
def pathsFrom : List PatternPart → String → ExceptT Obstacle m (List String)
  | [], path => return [path]
  | .literal name :: rest, directory => do
    let path := entryPath directory (String.ofList name)
    let found ← if name == ['.'] || name == ['.', '.'] then machine.isDirectory directory
      else machine.isThere path
    if found then pathsFrom rest path else return []
  | .wildcard tokens :: rest, directory => do
    let names ← sortedNames machine directory
    let special := if ← machine.isDirectory directory then
        [['.', '.'], ['.']].filter (fitsSpecial tokens)
      else []
    let outside ← special.mapM fun name => pathsFrom rest (join directory (String.ofList name))
    let inside ← (names.filter fun name => Pattern.fits tokens name.toList).mapM fun name =>
      pathsFrom rest (entryPath directory name)
    return outside.flatten ++ inside.flatten
  | [.directories], directory =>
    visitBelow machine (fun _ path => do
      return if ← machine.isDirectory path then [path] else []) depthBound directory
  | .directories :: part :: rest, directory =>
    visitBelow machine (fun name path =>
      if part.fitsName name.toList then pathsFrom rest path else return []) depthBound directory

/-- The paths that a pattern names. -/
def matchesOf (pattern : String) (parts : List PatternPart) : ExceptT Obstacle m (List String) := do
  let text := pattern.toList
  let found ← pathsFrom machine parts (if isAbsolute text then "/" else ".")
  if text.getLast? == some '/' then found.filterM fun path => machine.isDirectory path
  else return found

end ComponentLowering.Batch
