/-
# The ledger of style sheets

Which style sheets a module imports, and under which names.  A class imports each path once; the
name of a sheet differs from every name that is already taken.
-/
import ComponentLowering.Style.Identifier

namespace ComponentLowering.Style

/-- A style sheet that the module imports for one of its classes. -/
structure Sheet where
  owner : String
  key : Option String
  path : String
  name : String
deriving DecidableEq, Repr, Inhabited

/-- The style sheets of a module in the order of their first use, and all names that are taken. -/
structure Ledger where
  sheets : List Sheet := []
  taken : List String := []
deriving DecidableEq, Repr, Inhabited

/-- The name under which a style sheet is known, and whether it was not known before. -/
structure Hoisted where
  name : String
  isNew : Bool
deriving DecidableEq, Repr, Inhabited

/-- The `n`-th name to try for a candidate.  The numbers have no bound here.  A counter of 32 bits with a sign
gives the same names unless more than `2 ^ 31 - 2` names of one form are taken, since no search goes further than
there are such names. -/
def numbered (candidate : String) : Nat → String
  | 0 => candidate
  | n + 1 => candidate ++ "_" ++ String.ofList (Nat.toDigits 10 (n + 1))

/-- The first name for a candidate that is not taken.  One more try than there are taken names is
enough. -/
def freshName (taken : List String) (candidate : String) : String :=
  numbered candidate
    (((List.range (taken.length + 1)).find? fun n => !taken.contains (numbered candidate n)).getD 0)

namespace Ledger

/-- Whether a sheet is the one of a class at a path. -/
def holds (className path : String) (s : Sheet) : Bool := s.owner == className && s.path == path

/-- Takes a name that the module itself binds. -/
def reserve (l : Ledger) (name : String) : Ledger := { l with taken := name :: l.taken }

/-- The name of the style sheet of a class at a path.  A path that the class already uses keeps
its name, whatever the key. -/
def hoist (l : Ledger) (className : String) (key : Option String) (path : String) :
    Hoisted × Ledger :=
  match l.sheets.find? (holds className path) with
  | some known => (⟨known.name, false⟩, l)
  | none =>
    let name := freshName l.taken (candidate className key path)
    (⟨name, true⟩,
      { sheets := l.sheets ++ [{ owner := className, key, path, name }]
        taken := name :: l.taken })

end Ledger

end ComponentLowering.Style
