/-
# Faults of JSON texts

A text is refused because it ends too early, because it is not JSON, or because it is JSON of
another shape than the one that is wanted.
-/
import ComponentLowering.Text.Cursor

namespace ComponentLowering.Json

open ComponentLowering.Text

/-- What is wrong with a text. -/
inductive FaultCause where
  | ended (inside : String)
  | malformed (message : String)
  | mismatch (message : String)
deriving DecidableEq, Repr, Inhabited

/-- The line that a cause is reported by. -/
def FaultCause.message : FaultCause → String
  | ended inside => "EOF while parsing " ++ inside
  | malformed message | mismatch message => message

/-- What is wrong with a text, and at which byte. -/
structure Fault where
  cause : FaultCause
  offset : Nat
deriving DecidableEq, Repr, Inhabited

/-- The line and the column of a byte offset, for characters from a given place on. -/
def lineColumn (stop : Nat) : Nat → Nat → Nat → List Char → Nat × Nat
  | offset, line, lineStart, c :: rest =>
    if stop ≤ offset then (line, stop - lineStart)
    else
      let next := offset + byteWidth c
      if c = '\n' then lineColumn stop next (line + 1) next rest
      else lineColumn stop next line lineStart rest
  | _, line, lineStart, [] => (line, stop - lineStart)

/-- The line that a fault of a text is reported by, with its place. -/
def Fault.display (fault : Fault) (source : List Char) : String :=
  let (line, column) := lineColumn fault.offset 0 1 0 source
  fault.cause.message ++ " at line " ++ String.ofList (Nat.toDigits 10 line) ++ " column "
    ++ String.ofList (Nat.toDigits 10 column)

end ComponentLowering.Json
