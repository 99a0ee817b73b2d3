/-
# Style references

The style sheets that a component names: a list of paths, or a path for each of some keys.
-/

namespace ComponentLowering.Style

/-- The value of a key that a list of pairs gives, if it gives one. -/
def lookup {α : Type} (key : String) : List (String × α) → Option α
  | [] => none
  | (k, v) :: rest => if k == key then some v else lookup key rest

/-- Sets the value of a key.  A key keeps the position at which it was first set. -/
def setPair {α : Type} (pairs : List (String × α)) (key : String) (value : α) :
    List (String × α) :=
  match pairs with
  | [] => [(key, value)]
  | (k, v) :: rest => if k == key then (k, value) :: rest else (k, v) :: setPair rest key value

/-- The pairs that remain when pairs are set one after the other. -/
def ofPairs {α : Type} (pairs : List (String × α)) : List (String × α) :=
  pairs.foldl (fun acc p => setPair acc p.1 p.2) []

/-- The style sheets of a component. -/
inductive Refs where
  /-- Paths in the order in which they apply. -/
  | sequence (paths : List String)
  /-- A path for each key; no key stands twice. -/
  | mapping (pairs : List (String × String))
deriving DecidableEq, Repr, Inhabited

/-- A style sheet that is referred to, with its key, if it has one. -/
structure Entry where
  key : Option String
  path : String
deriving DecidableEq, Repr, Inhabited

/-- Puts a pair in front of the first pair with a greater key. -/
def insertPair (pair : String × String) : List (String × String) → List (String × String)
  | [] => [pair]
  | p :: rest => if pair.1 < p.1 then pair :: p :: rest else p :: insertPair pair rest

/-- Pairs in the order of their keys. -/
def sortPairs : List (String × String) → List (String × String)
  | [] => []
  | p :: rest => insertPair p (sortPairs rest)

namespace Refs

/-- Whether nothing is referred to. -/
def isEmpty : Refs → Bool
  | sequence paths => paths.isEmpty
  | mapping pairs => pairs.isEmpty

/-- The style sheets in the order in which they are emitted: as they are written for a list, in
the order of the keys for a mapping. -/
def entries : Refs → List Entry
  | sequence paths => paths.map fun path => { key := none, path }
  | mapping pairs => (sortPairs pairs).map fun (key, path) => { key := some key, path }

end Refs

end ComponentLowering.Style
