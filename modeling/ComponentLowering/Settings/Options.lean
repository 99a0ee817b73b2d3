/-
# Options

What the form of the lowered code depends on, and the words by which it is chosen.
-/

namespace ComponentLowering.Settings

/-- How the lowered module refers to other modules. -/
inductive Convention where
  /-- By import declarations; a component becomes a constant that holds a class. -/
  | esm
  /-- By calls of `require`; a component stays a class declaration. -/
  | cjs
deriving DecidableEq, Repr, Inhabited

/-- What becomes of the export of a component. -/
inductive ComponentExport where
  /-- It is kept. -/
  | lazy
  /-- It is dropped. -/
  | customElement
deriving DecidableEq, Repr, Inhabited

/-- What becomes of the style sheets of a component. -/
inductive StyleMode where
  /-- They are imported and attached to the class. -/
  | static
  /-- They are ignored. -/
  | none
deriving DecidableEq, Repr, Inhabited

/-- The module from which the decorators and the runtime functions come by default. -/
def defaultCorePath : String := "@stencil/core"

/-- All options. -/
structure Options where
  corePath : String := defaultCorePath
  convention : Convention := .esm
  componentExport : ComponentExport := .lazy
  style : StyleMode := .static
deriving DecidableEq, Repr, Inhabited

/-- A word that names no choice of an option. -/
inductive UnknownWord where
  | convention (word : String)
  | componentExport (word : String)
  | style (word : String)
deriving DecidableEq, Repr, Inhabited

/-- The line that an unknown word is reported by. -/
def UnknownWord.message : UnknownWord → String
  | convention word => "unknown module convention '" ++ word ++ "'"
  | componentExport word => "unknown component export '" ++ word ++ "'"
  | style word => "unknown style mode '" ++ word ++ "'"

namespace Convention

/-- The name of a convention. -/
def name : Convention → String
  | esm => "esm"
  | cjs => "cjs"

/-- The convention that a word stands for. -/
def ofWord (word : String) : Except UnknownWord Convention :=
  if word == "esm" || word == "es" || word == "esnext" then .ok esm
  else if word == "cjs" || word == "commonjs" then .ok cjs
  else .error (.convention word)

end Convention

namespace ComponentExport

/-- The name of an export form. -/
def name : ComponentExport → String
  | lazy => "lazy"
  | customElement => "customelement"

/-- The export form that a word stands for. -/
def ofWord (word : String) : Except UnknownWord ComponentExport :=
  if word == "lazy" then .ok lazy
  else if word == "customelement" then .ok customElement
  else .error (.componentExport word)

end ComponentExport

namespace StyleMode

/-- The name of a style mode. -/
def name : StyleMode → String
  | static => "static"
  | none => "none"

/-- The style mode that a word stands for. -/
def ofWord (word : String) : Except UnknownWord StyleMode :=
  if word == "static" then .ok static
  else if word == "none" then .ok none
  else .error (.style word)

end StyleMode

end ComponentLowering.Settings
