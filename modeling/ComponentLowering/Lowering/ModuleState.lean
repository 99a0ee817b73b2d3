/-
# The state of a module

What is kept while the classes of one module are lowered one after the other.
-/
import ComponentLowering.Lowering.CoreFunction
import ComponentLowering.Style.Ledger

namespace ComponentLowering.Lowering

open ComponentLowering.Style

/-- A change of the offset at which comments are anchored. -/
structure CommentMove where
  source : Nat
  target : Nat
deriving DecidableEq, Repr, Inhabited

/-- The style sheets imported so far, the core functions used so far, and the places from which
comments have to move away. -/
structure ModuleState where
  styles : Ledger := {}
  used : CoreUse := {}
  moves : List CommentMove := []
deriving DecidableEq, Repr, Inhabited

namespace ModuleState

/-- Takes a name that the module itself binds. -/
def reserve (s : ModuleState) (name : String) : ModuleState :=
  { s with styles := s.styles.reserve name }

/-- The name of the style sheet of a class at a path. -/
def hoist (s : ModuleState) (className : String) (key : Option String) (path : String) :
    Hoisted × ModuleState :=
  let (hoisted, styles) := s.styles.hoist className key path
  (hoisted, { s with styles })

/-- Uses a function of the core module. -/
def useCore (s : ModuleState) (f : CoreFunction) : ModuleState :=
  { s with used := s.used.insert f }

/-- Moves comments from one place to another, unless they stay where they are. -/
def moveComments (s : ModuleState) (source target : Nat) : ModuleState :=
  if source == target then s else { s with moves := s.moves ++ [{ source, target }] }

end ModuleState

end ComponentLowering.Lowering
