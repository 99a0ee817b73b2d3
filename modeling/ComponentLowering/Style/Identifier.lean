/-
# Names of style sheets

A style sheet is bound to a name made of the class name in capitals, the key of the sheet, if any,
and its path.  Different sheets may lead to the same name.
-/
import ComponentLowering.Text.Identifier

namespace ComponentLowering.Style

open ComponentLowering.Text

/-- Whether a word ends between two characters: in front of a capital that follows a small letter
or a digit, or that follows a capital and starts a new word. -/
def startsWord (before c : Char) (after : Option Char) : Bool :=
  c.isUpper && (before.isLower || before.isDigit
    || (before.isUpper && (after.map Char.isLower).getD false))

/-- The characters of a name in capitals, the words kept apart by underscores. -/
def capitals : Option Char → List Char → List Char
  | _, [] => []
  | before, c :: rest =>
    let here := match before with
      | some b => if startsWord b c rest.head? then ['_', c.toUpper] else [c.toUpper]
      | none => [c.toUpper]
    here ++ capitals (some c) rest

/-- Replaces the characters that may not stand in a name by underscores. -/
def plainChars (cs : List Char) : List Char :=
  cs.map fun c => if isAsciiNamePart c then c else '_'

/-- A class name in capitals. -/
def constantCase (name : String) : String :=
  String.ofList (plainChars (capitals none name.toList))

/-- Drops the mark of the current directory at the start of a path. -/
def withoutDot : List Char → List Char
  | '.' :: '/' :: rest => rest
  | cs => cs

/-- A path as part of a name.  Its extension stays. -/
def pathPart (path : String) : String :=
  String.ofList (plainChars (withoutDot path.toList))

/-- The name that a style sheet is bound to unless it is taken. -/
def candidate (className : String) (key : Option String) (path : String) : String :=
  match key with
  | some k =>
    constantCase className ++ "_" ++ String.ofList (plainChars k.toList) ++ "__" ++ pathPart path
  | none => constantCase className ++ "__" ++ pathPart path

end ComponentLowering.Style
