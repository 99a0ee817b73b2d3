/-
# Writing imports and exports

Directives, import declarations and export lists: what a module writes without any expression.
-/
import ComponentLowering.Syntax.Tree
import ComponentLowering.Syntax.Printer.Page

namespace ComponentLowering.Syntax

open ComponentLowering.Text ComponentLowering.Number

namespace Writing

/-- The name of an import or export. -/
def moduleName : ModuleName → Writing
  | .ident name => text name.name
  | .string literal => chars (quoted literal.value)

/-- Items separated by commas. -/
def commaSeparated {α : Type} (item : α → Writing) : List α → Writing
  | [] => pure ⟨⟩
  | [a] => item a
  | a :: rest => do
    item a
    text ", "
    commaSeparated item rest

/-- A string for the raw text of which the quotes are chosen. -/
def rawDirective (raw : String) : Writing := do
  let rec firstQuote : List Char → Char
    | '\\' :: _ :: rest => firstQuote rest
    | c :: rest => if c = '"' || c = '\'' then c else firstQuote rest
    | [] => '\''
  let quote := if firstQuote raw.toList = '"' then '\'' else '"'
  put quote
  text raw
  put quote

/-- A directive. -/
def directive (d : Directive) : Writing := do
  commentsAt d.span.start
  indent
  rawDirective d.raw
  semicolon

/-- One attribute of an import or export. -/
def importAttribute (a : ImportAttribute) : Writing := do
  moduleName a.key
  text ": "
  chars (quoted a.value.value)

/-- The attributes of an import or export. -/
def importAttributes (keyword : String) : Option (List ImportAttribute) → Writing
  | none => pure ⟨⟩
  | some items => do
    put ' '
    text keyword
    if items.isEmpty then text " \x7b\x7d"
    else
      text " \x7b "
      commaSeparated importAttribute items
      text " \x7d"

/-- The specifiers of an import; `inList` tells whether the braces are open. -/
def importSpecifiers (inList isFirst : Bool) : List ImportSpecifier → Writing
  | [] => only inList (text " \x7d")
  | .named _ imported binding typeOnly :: rest => do
    if inList then text ", "
    else
      only (!isFirst) (put ',')
      text " \x7b "
    only typeOnly (text "type ")
    moduleName imported
    only (imported.text != binding.name) do
      text " as "
      text binding.name
    importSpecifiers true false rest
  | .default _ binding :: rest => do
    if inList then text " \x7d, " else if isFirst then put ' ' else text ", "
    text binding.name
    importSpecifiers false false rest
  | .allNames _ binding :: rest => do
    if inList then text " \x7d, " else if isFirst then put ' ' else text ", "
    text "* as "
    text binding.name
    importSpecifiers false false rest

/-- An import declaration. -/
def importDecl (d : ImportDecl) : Writing := do
  text "import"
  only d.typeOnly (text " type")
  match d.phase with
  | none => pure ⟨⟩
  | some phase =>
    put ' '
    text phase
  match d.specifiers with
  | some [] =>
    text " \x7b\x7d from \""
    text d.source.value.text
    put '"'
  | some specifiers =>
    importSpecifiers false true specifiers
    text " from "
    chars (quoted d.source.value)
  | none =>
    put ' '
    chars (quoted d.source.value)
  importAttributes d.attributeKeyword d.attributes
  semicolon

/-- One name of an export list. -/
def exportSpecifier (s : ExportSpecifier) : Writing := do
  only s.typeOnly (text "type ")
  moduleName s.localName
  only (s.localName.text != s.exposed.text) do
    text " as "
    moduleName s.exposed

/-- An export list.  The attributes of its source are not written. -/
def exportList (e : ExportList) : Writing := do
  text "export"
  only e.typeOnly (text " type")
  if e.specifiers.isEmpty then text " \x7b\x7d"
  else
    text " \x7b "
    commaSeparated exportSpecifier e.specifiers
    text " \x7d"
  match e.source with
  | none => pure ⟨⟩
  | some source =>
    text " from "
    chars (quoted source.value)
  semicolon

/-- A re-export of all names. -/
def exportAll (e : ExportAll) : Writing := do
  text "export"
  only e.typeOnly (text " type")
  text " *"
  match e.alias? with
  | none => pure ⟨⟩
  | some name =>
    text " as "
    moduleName name
  text " from "
  chars (quoted e.source.value)
  importAttributes e.attributeKeyword e.attributes
  semicolon

end Writing

end ComponentLowering.Syntax
