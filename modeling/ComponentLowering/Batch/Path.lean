/-
# Paths

A path is the text by which a file is named.  Two texts name the same path when they have the same
parts: doubled slashes, slashes at the end and single dots in the middle say nothing.  Joining keeps
the texts as they are, so that a path is shown as it was given.
-/

namespace ComponentLowering.Batch

/-- A part of a path. -/
inductive PathPart where
  | root
  /-- The dot at the beginning of a path. -/
  | current
  | parent
  | name (text : List Char)
deriving DecidableEq, Repr, Inhabited

namespace PathPart

/-- The order of the kinds of parts. -/
def rank : PathPart → Nat
  | root => 0
  | current => 1
  | parent => 2
  | name _ => 3

/-- The text of a name. -/
def text : PathPart → List Char
  | name t => t
  | _ => []

/-- The order of parts: by their kind, names by their characters. -/
def compare (a b : PathPart) : Ordering :=
  (Ord.compare a.rank b.rank).then (List.compareLex Ord.compare a.text b.text)

end PathPart

/-- The pieces of a path between its slashes. -/
def segments (path : List Char) : List (List Char) := path.splitOn '/'

/-- Whether a piece between slashes says nothing. -/
def isSilent (segment : List Char) : Bool := segment == [] || segment == ['.']

/-- The part for a piece between slashes, if it says something. -/
def partOf? (segment : List Char) : Option PathPart :=
  if isSilent segment then none
  else if segment == ['.', '.'] then some .parent
  else some (.name segment)

/-- Whether a path starts at the root. -/
def isAbsolute (path : List Char) : Bool := path.head? == some '/'

/-- The parts of a path. -/
def partsOf (path : List Char) : List PathPart :=
  let rest := (segments path).filterMap partOf?
  if isAbsolute path then .root :: rest
  else if (segments path).head? == some ['.'] then .current :: rest
  else rest

/-- The parts of a path. -/
def parts (path : String) : List PathPart := partsOf path.toList

/-- Whether two texts name the same path. -/
def samePath (a b : String) : Bool := parts a == parts b

/-- The order of paths: part by part. -/
def comparePaths (a b : String) : Ordering := List.compareLex PathPart.compare (parts a) (parts b)

/-- Whether a path does not come after another one. -/
def pathLe (a b : String) : Bool := (comparePaths a b).isLE

/-- A path inside another one.  An absolute path is inside of nothing and stays as it is. -/
def join (base path : String) : String :=
  if isAbsolute path.toList then path
  else if base.isEmpty || base.toList.getLast? == some '/' then base ++ path
  else base ++ "/" ++ path

/-- The name of the file that a path leads to. -/
def fileName? (path : String) : Option String :=
  match (parts path).getLast? with
  | some (.name text) => some (String.ofList text)
  | _ => none

/-- The path without its last part, if it has one that can be left out. -/
def parent? (path : String) : Option String :=
  match (parts path).getLast? with
  | none => none
  | some .root => none
  | some .current => some ""
  | some _ =>
    let text := path.toList
    let lead := if isAbsolute text || (segments text).head? == some ['.'] then text.take 1 else []
    let body := segments (text.drop lead.length)
    let kept := ((body.reverse.dropWhile isSilent).drop 1).dropWhile isSilent
    some (String.ofList (lead ++ ['/'].intercalate kept.reverse))

/-- Where the result for an input goes: a relative path keeps its directories inside the output
directory, any other one is put there under its file name. -/
def outputPath (outDir input : String) : String :=
  if !isAbsolute input.toList && !(parts input).contains .parent then join outDir input
  else join outDir ((fileName? input).getD input)

end ComponentLowering.Batch
