/-
# File trees

Files and directories held in memory, with the directory that a run works in.  They answer and fail
as those of a real machine do on which there are no links, no special files and no permissions.
-/
import ComponentLowering.Batch.Machine
import ComponentLowering.Batch.Path

namespace ComponentLowering.Batch

/-- What a name in a directory stands for. -/
inductive TreeEntry where
  | directory
  | file (content : ByteArray)
deriving Inhabited

/-- The kind of an entry. -/
def TreeEntry.kind : TreeEntry → EntryKind
  | directory => .directory
  | file _ => .file

/-- Why an operation on files fails. -/
inductive FileFault where
  | missing | present | notDirectory | isDirectory | notText
deriving DecidableEq, Repr, Inhabited

/-- The text of a fault. -/
def FileFault.message : FileFault → String
  | missing => "No such file or directory (os error 2)"
  | present => "File exists (os error 17)"
  | notDirectory => "Not a directory (os error 20)"
  | isDirectory => "Is a directory (os error 21)"
  | notText => "stream did not contain valid UTF-8"

/-- The names that lead from the root to an entry. -/
abbrev Location := List (List Char)

/-- The entries of a tree, and the directory that relative paths start from. -/
structure FileTree where
  home : Location := []
  entries : List (Location × TreeEntry) := []
deriving Inhabited

namespace FileTree

/-- What is at a location.  The working directory and those above it are always there. -/
def find? (t : FileTree) (place : Location) : Option TreeEntry :=
  if place.isPrefixOf t.home then some .directory else t.entries.lookup place

/-- Puts an entry at a location. -/
def put (t : FileTree) (place : Location) (entry : TreeEntry) : FileTree :=
  { t with entries := (place, entry) :: t.entries.filter fun e => e.1 != place }

/-- The names in the directory at a location. -/
def namesAt (t : FileTree) (place : Location) : List (List Char) :=
  t.entries.filterMap fun e => if e.1.dropLast == place then e.1.getLast? else none

/-- Goes from a location along a piece of a path.  The root is its own parent. -/
def step (t : FileTree) (place : Location) (segment : List Char) : Except FileFault Location :=
  match t.find? place with
  | none => .error .missing
  | some (.file _) => .error .notDirectory
  | some .directory =>
    if isSilent segment then .ok place
    else if segment == ['.', '.'] then .ok place.dropLast
    else .ok (place ++ [segment])

/-- The location that a path starts from. -/
def start (t : FileTree) (path : List Char) : Location := if isAbsolute path then [] else t.home

/-- The location that a path leads to.  The entry itself need not be there. -/
def locate (t : FileTree) (path : String) : Except FileFault Location :=
  if path.isEmpty then .error .missing
  else (segments path.toList).foldlM t.step (t.start path.toList)

/-- The entry that a path leads to. -/
def entryAt (t : FileTree) (path : String) : Except FileFault TreeEntry := do
  match t.find? (← t.locate path) with
  | some entry => return entry
  | none => throw .missing

/-- Makes the directories along the pieces of a path. -/
def makeFrom (t : FileTree) : List (List Char) → Location → Except FileFault FileTree
  | [], _ => .ok t
  | segment :: rest, place =>
    if isSilent segment then makeFrom t rest place
    else do
      let next ← t.step place segment
      match t.find? next with
      | some .directory => makeFrom t rest next
      | some (.file _) =>
        throw (if rest.all isSilent then FileFault.present else .notDirectory)
      | none => makeFrom (t.put next .directory) rest next

/-- Makes a directory and those above it. -/
def makeDirectories (t : FileTree) (path : String) : Except FileFault FileTree :=
  makeFrom t (segments path.toList) (t.start path.toList)

/-- Writes a file. -/
def write (t : FileTree) (path content : String) : Except FileFault FileTree := do
  let place ← t.locate path
  match t.find? place with
  | some .directory => throw .isDirectory
  | _ => return t.put place (.file content.toUTF8)

/-- The text of a file. -/
def read (t : FileTree) (path : String) : Except FileFault String := do
  match ← t.entryAt path with
  | .directory => throw .isDirectory
  | .file content =>
    match String.fromUTF8? content with
    | some text => return text
    | none => throw .notText

/-- Gives the text of a fault. -/
def told {α : Type} (result : Except FileFault α) : Except String α :=
  result.mapError FileFault.message

/-- Takes the tree that an operation made, if it did not fail. -/
def update (change : FileTree → Except FileFault FileTree) :
    StateM FileTree (Except String PUnit) :=
  fun t =>
    match change t with
    | .ok t' => (.ok ⟨⟩, t')
    | .error fault => (.error fault.message, t)

/-- The tree as a machine, whose clock stands still. -/
def machine : Machine (StateM FileTree) where
  kind? path := return (← get).entryAt path |>.toOption.map TreeEntry.kind
  names path := do
    let t ← get
    return told do
      match ← t.entryAt path with
      | .directory => return (t.namesAt (← t.locate path)).map String.ofList
      | .file _ => throw .notDirectory
  read path := return told ((← get).read path)
  makeDirectories path := update fun t => t.makeDirectories path
  write path content := update fun t => t.write path content
  now := return 0

end FileTree

end ComponentLowering.Batch
