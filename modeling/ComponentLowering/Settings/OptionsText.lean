/-
# Options as text

Options are written as a JSON object.  Keys may stand in any order, unknown keys are ignored, and
what is left out has its default; a key may not be repeated.  A list of the values in a fixed
order is read as well.
-/
import ComponentLowering.Json.Reader
import ComponentLowering.Settings.Options
import ComponentLowering.Text.Blank

namespace ComponentLowering.Settings

open ComponentLowering.Json ComponentLowering.Text

/-- Why options are refused. -/
inductive OptionsFault where
  | json (fault : Fault)
  | blankCorePath
deriving DecidableEq, Repr, Inhabited

/-- The line that refused options are reported by. -/
def OptionsFault.display (source : List Char) : OptionsFault → String
  | json fault => fault.display source
  | blankCorePath => "coreImportPath must not be empty"

/-- The options that a text gives. -/
structure GivenOptions where
  corePath : Option String := none
  convention : Option Convention := none
  componentExport : Option ComponentExport := none
  style : Option StyleMode := none
deriving DecidableEq, Repr, Inhabited

/-- Given options, completed by defaults. -/
def GivenOptions.complete (given : GivenOptions) : Options :=
  let default : Options := {}
  { corePath := given.corePath.getD default.corePath
    convention := given.convention.getD default.convention
    componentExport := given.componentExport.getD default.componentExport
    style := given.style.getD default.style }

namespace OptionsText

/-- The path of the core module. -/
def corePath : Reader String := Reader.string "a string"

/-- A module convention. -/
def convention : Reader Convention :=
  Reader.oneOf [("esm", .esm), ("cjs", .cjs)]

/-- An export form. -/
def componentExport : Reader ComponentExport :=
  Reader.oneOf [("lazy", .lazy), ("customelement", .customElement)]

/-- A style mode. -/
def style : Reader StyleMode :=
  Reader.oneOf [("static", .static), ("none", .none)]

/-- Reads the value of a known key that has not been given yet. -/
def given {α : Type} (key : String) (before : Option α) (value : Reader α) : Reader (Option α) :=
  match before with
  | some _ => Reader.duplicate key
  | none => do
    Reader.colon
    return some (← value)

/-- Reads the value of a key. -/
def member (o : GivenOptions) (key : String) : Reader GivenOptions :=
  if key == "coreImportPath" then
    return { o with corePath := ← given key o.corePath corePath }
  else if key == "module" then
    return { o with convention := ← given key o.convention convention }
  else if key == "componentExport" then
    return { o with componentExport := ← given key o.componentExport componentExport }
  else if key == "style" then
    return { o with style := ← given key o.style style }
  else do
    Reader.colon
    Reader.ignored
    return o

/-- Reads the members of an object up to its end. -/
def members : Nat → Bool → GivenOptions → Reader GivenOptions
  | 0, _, o => return o
  | fuel + 1, isFirst, o => do
    match ← Reader.nextKey? isFirst with
    | none => return o
    | some key => members fuel false (← member o key)

/-- Reads an item of a list, if there is one. -/
def item? {α : Type} (isFirst : Bool) (value : Reader α) : Reader (Option α) := do
  if ← Reader.nextItem? isFirst then return some (← value) else return none

/-- Reads the values of a list in their fixed order. -/
def items : Reader GivenOptions := do
  let corePath ← item? true corePath
  let convention ← item? corePath.isNone convention
  let componentExport ← item? convention.isNone componentExport
  let style ← item? componentExport.isNone style
  return { corePath, convention, componentExport, style }

/-- Reads options. -/
def options : Reader GivenOptions := do
  let o ← do
    match ← Reader.next? with
    | none => Reader.failNext (.ended "a value")
    | some '[' =>
      Reader.advance
      let o ← items
      Reader.listEnd
      pure o
    | some '\x7b' =>
      Reader.advance
      let o ← members ((← get).rest.length + 1) true {}
      Reader.advance
      pure o
    | some _ => Reader.refuse "struct TransformOptions"
  Reader.finished
  return o

end OptionsText

/-- The options that a text describes.  The path of the core module may not be blank. -/
def Options.ofText (source : List Char) : Except OptionsFault Options :=
  match OptionsText.options.run ⟨source, 0⟩ with
  | .error fault => .error (.json fault)
  | .ok (given, _) =>
    let o := given.complete
    if isBlankText o.corePath then .error .blankCorePath else .ok o

end ComponentLowering.Settings
