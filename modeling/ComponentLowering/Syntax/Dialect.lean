/-
# Dialects

The grammar of a module is chosen by the last extension of its file name.
-/

namespace ComponentLowering.Syntax

/-- What a module may contain.  A script treats `await` as a name; declarations are ambient. -/
structure Dialect where
  types : Bool
  markup : Bool
  script : Bool
  declarations : Bool
deriving DecidableEq, Repr, Inhabited

namespace Dialect

/-- Plain modules without types or markup. -/
def plain : Dialect := ⟨false, false, false, false⟩

/-- Modules with type annotations. -/
def typed : Dialect := ⟨true, false, false, false⟩

/-- The last part of a path.  Slashes at its end and the parts that stay in place are left out. -/
def fileName (path : List Char) : List Char :=
  let parts := (path.splitOn '/').filter fun part => !part.isEmpty && part != ['.']
  parts.getLastD []

/-- The parts of a file name between its dots. -/
def dotted (name : List Char) : List (List Char) :=
  name.splitOn '.'

/-- Whether the parts of a file name in front of its extension call it a declaration file: the
last one does, or one of the last two if another extension may stand between. -/
def namesDeclarations (window : Nat) (parts : List (List Char)) : Bool :=
  (parts.reverse.take window).contains ['d']

/-- The dialect of a file.  Names without a known extension hold typed modules. -/
def ofPath (path : String) : Dialect :=
  let parts := dotted (fileName path.toList)
  let stem := parts.dropLast
  let hidden := parts.length ≤ 1 || (parts.length == 2 && parts.head? == some [])
  if hidden then typed
  else
    match parts.getLast?.map String.ofList with
    | some "ts" => { typed with declarations := namesDeclarations 2 stem }
    | some "mts" => { typed with declarations := namesDeclarations 1 stem }
    | some "cts" => { typed with declarations := namesDeclarations 1 stem }
    | some "tsx" => { typed with markup := true }
    | some "js" => plain
    | some "mjs" => plain
    | some "cjs" => { plain with script := true }
    | some "jsx" => { plain with markup := true }
    | _ => typed

end Dialect

end ComponentLowering.Syntax
