/-
# Machines

What a run needs of the machine it runs on: its files and a clock.  A run is written over these
operations, so that it can be followed on a file tree in memory as well as on a real one.
-/

namespace ComponentLowering.Batch

/-- What a path leads to. -/
inductive EntryKind where
  | file | directory | other
deriving DecidableEq, Repr, Inhabited

/-- The operations of a machine.  One that fails answers with the text of the fault. -/
structure Machine (m : Type → Type) where
  kind? : String → m (Option EntryKind)
  /-- The names in a directory, in any order. -/
  names : String → m (Except String (List String))
  read : String → m (Except String String)
  /-- Makes a directory and those above it; one that is there already is fine. -/
  makeDirectories : String → m (Except String PUnit)
  write : String → String → m (Except String PUnit)
  /-- The time in nanoseconds. -/
  now : m Nat

namespace Machine

variable {m : Type → Type} [Monad m] (machine : Machine m)

/-- Whether a path leads to a regular file. -/
def isFile (path : String) : m Bool := return (← machine.kind? path) == some .file

/-- Whether a path leads to a directory. -/
def isDirectory (path : String) : m Bool := return (← machine.kind? path) == some .directory

/-- Whether a path leads anywhere. -/
def isThere (path : String) : m Bool := return (← machine.kind? path).isSome

end Machine

end ComponentLowering.Batch
