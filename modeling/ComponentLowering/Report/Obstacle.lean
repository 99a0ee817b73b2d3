/-
# Obstacles

What keeps a run from going on, with the fault that is behind it.
-/

namespace ComponentLowering.Report

/-- What could not be done, and why. -/
structure Obstacle where
  message : String
  cause : Option String := none
deriving DecidableEq, Repr, Inhabited

/-- The line that an obstacle is reported by. -/
def Obstacle.display (o : Obstacle) : String :=
  match o.cause with
  | none => o.message
  | some cause => o.message ++ ": " ++ cause

end ComponentLowering.Report
