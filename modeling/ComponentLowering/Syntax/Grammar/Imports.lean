/-
# The grammar of imports and exports

Import declarations, export lists, re-exports and default exports.  A name of another module may be
a string, which has to be well-formed text.
-/
import ComponentLowering.Syntax.Grammar.Declarations

namespace ComponentLowering.Syntax

open ComponentLowering.Text ComponentLowering.Number

namespace Parser

section

variable (r : Rules)

/-- A word or a string. -/
def wordOrString : Parser ModuleName := do
  match (← peek).lexeme with
  | .string _ => .string <$> stringLiteral
  | _ => .ident <$> anyWord

/-- The name of an import or export.  A string has to be well-formed text. -/
def moduleName : Parser ModuleName := do
  match (← peek).lexeme with
  | .string value => ensure !value.hasLoneSurrogates
  | _ => pure ⟨⟩
  wordOrString

/-- The attributes of an import or export, with the word that introduces them.  No key stands
twice. -/
def attributes : Parser (String × Option (List ImportAttribute)) := do
  let t ← peek
  if t.isWord "with" || (t.isWord "assert" && !t.afterNewline) then
    let word ← takeWord
    expectMark "\x7b"
    let entries ← commaItems "\x7d" do
      let start ← startOffset
      let key ← wordOrString
      expectMark ":"
      let value ← stringLiteral
      return ImportAttribute.mk (← spanFrom start) key value
    expectMark "\x7d"
    let keys := entries.map (·.key.text)
    ensure (keys.eraseDups == keys)
    return (word, some entries)
  else return ("with", none)

/-- Whether a token may be the name of an import or export. -/
def namesExport (t : Token) : Bool :=
  match t.lexeme with
  | .string _ => true
  | _ => isAnyWord t

/-- A specifier in braces: the outer and the inner name, and whether only its type is meant. -/
def moduleSpecifier : Parser (ModuleName × ModuleName × Bool) := do
  let typed := (← dialect).types
  let typeOnly ← if typed && (← atWord "type") then
      ahead do
        skip
        let t ← peek
        if t.isWord "as" then
          -- `type as`, `type as x` and `type as as x`
          skip
          let u ← peek
          if u.isWord "as" then nextIs namesExport
          else return !namesExport u
        else return namesExport t
    else pure false
  if typeOnly then advance
  let first ← moduleName
  if ← eatWord "as" then return (first, ← moduleName, typeOnly)
  else return (first, first, typeOnly)

/-- A named binding of an import. -/
def importSpecifier : Parser ImportSpecifier := do
  let start ← startOffset
  let (imported, localName, typeOnly) ← moduleSpecifier
  match localName with
  | .ident n =>
    ensure (!reservedWords.contains n.name)
    return .named (← spanFrom start) imported n typeOnly
  | .string _ => failure

/-- The bindings of an import behind a default one, if there is one, with the word `from`. -/
def importSpecifiers (default : List ImportSpecifier) : Parser (List ImportSpecifier) := do
  if !default.isEmpty then
    if !(← eatMark ",") then
      expectWord "from"
      return default
  let start ← startOffset
  let more ← if ← eatMark "*" then do
      expectWord "as"
      let n ← name
      pure [.allNames (← spanFrom start) n]
    else do
      expectMark "\x7b"
      let named ← commaItems "\x7d" importSpecifier
      expectMark "\x7d"
      pure named
  expectWord "from"
  return default ++ more

/-- The rest of an import declaration.  A default binding in front of a string is not kept. -/
def importFrom (start : Nat) (typeOnly : Bool) (phase : Option String) : Parser Stmt := do
  let default ← if isNameWord (← peek) then do
      let n ← name
      pure [ImportSpecifier.default n.span n]
    else pure []
  let specifiers ← match (← peek).lexeme with
    | .string _ => pure none
    | _ => some <$> importSpecifiers default
  ensure !(typeOnly && (specifiers.getD []).any ImportSpecifier.isTypeOnly)
  let source ← stringLiteral
  let (word, entries) ← attributes
  semicolon
  return .importDecl ⟨← spanFrom start, typeOnly, phase, specifiers, source, word, entries⟩

/-- Whether a phase is named here: by the word `defer` in front of all names, or by the word
`source` in front of a default name. -/
def atPhase : Parser Bool := do
  if ← atWord "defer" then nextIs fun u => u.isMark "*"
  else if ← atWord "source" then
    ahead do
      skip
      let _ ← name
      atWord "from"
  else return false

/-- Whether the word `type` here says that only types are imported: in front of names, or in front
of a default name, which may be `from` if that word stands there twice. -/
def atTypeOnly : Parser Bool :=
  ahead do
    expectWord "type"
    let t ← peek
    if t.isMarkOf ["\x7b", "*"] then return true
    ensure (isNameWord t)
    if t.isWord "from" then nextIs fun u => u.isWord "from" || u.isMark "="
    else return true

/-- Whether a name stands here in front of an equals sign. -/
def atAlias : Parser Bool :=
  ahead do
    let _ ← name
    atMark "="

/-- An import declaration, behind the word `import`. -/
def importRest (start : Nat) : Parser Stmt := do
  let typed := (← dialect).types
  if typed && (← atAlias) then importAliasFrom start
  else if typed && (← atTypeOnly) then
    advance
    if ← atAlias then importAliasFrom start else importFrom start true none
  else if ← atPhase then
    let word ← takeWord
    importFrom start false (some word)
  else importFrom start false none

/-- An import declaration. -/
def importStatement : Parser Stmt := do
  let start ← startOffset
  expectWord "import"
  importRest start

/-- Whether a token is a literal. -/
def isLiteral (t : Token) : Bool :=
  match t.lexeme with
  | .string _ | .number _ | .bigint _ => true
  | _ => t.isWordOf ["null", "true", "false"]

/-- The source of a re-export, whose attributes do not count.  The word `from` alone says
nothing. -/
def exportSource? : Parser (Option StringLiteral) := do
  if (← eatWord "from") && isLiteral (← peek) then
    let source ← stringLiteral
    let _ ← attributes
    return some source
  else return none

/-- Words that a list without a source must not export. -/
def unexportable : List String :=
  reservedWords ++ ["await", "yield", "implements", "interface", "package", "private", "protected",
    "public", "static"]

/-- Whether something that is declared in the module is exported. -/
def isLocal (s : ExportSpecifier) : Bool :=
  match s.localName with
  | .ident n => !unexportable.contains n.name
  | .string _ => false

/-- An export list, from its opening brace on. -/
def exportListFrom (start : Nat) (typeOnly : Bool) : Parser Stmt := do
  expectMark "\x7b"
  let specifiers ← commaItems "\x7d" do
    let itemStart ← startOffset
    let (localName, exposed, only) ← moduleSpecifier
    return ExportSpecifier.mk (← spanFrom itemStart) exposed localName only
  expectMark "\x7d"
  ensure !(typeOnly && specifiers.any (·.typeOnly))
  let source ← exportSource?
  semicolon
  ensure (source.isSome || specifiers.all isLocal)
  return .exportList ⟨← spanFrom start, typeOnly, specifiers, source⟩

/-- A re-export of all names, from its star on. -/
def exportAllFrom (start : Nat) (typeOnly : Bool) : Parser Stmt := do
  expectMark "*"
  let exposed ← if ← eatWord "as" then some <$> moduleName else pure none
  expectWord "from"
  let source ← stringLiteral
  let (word, entries) ← attributes
  semicolon
  return .exportAll ⟨← spanFrom start, typeOnly, exposed, source, word, entries⟩

/-- Decorators behind others that were read before the words of an export.  They stand in one of
the two places. -/
def moreDecorators (decs : List Decorator) : Parser (List Decorator) := do
  let more ← decorators r
  ensure (decs.isEmpty || more.isEmpty)
  return decs ++ more

/-- A default export, behind the word `default`.  Decorators may have been read before. -/
def exportDefaultFrom (start : Nat) (decs : List Decorator) : Parser Stmt := do
  let declStart ← startOffset
  let isPure := (← get).newest.notesPureFunction
  let decs ← moreDecorators r decs
  let t ← peek
  if t.isWord "class" ||
      (t.isWord "abstract" && (← nextIs fun u => u.isWord "class" && !u.afterNewline)) then
    let words ← if ← eatWord "abstract" then pure ["abstract"] else pure []
    let c ← classDeclaration r declStart decs words
    return .exportDefault (← spanFrom start) (.classDecl c)
  ensure decs.isEmpty
  if (← dialect).types && t.isWord "interface" && (← nextIs namesOnLine) then
    advance
    let i ← interfaceFrom r declStart
    return .exportDefault (← spanFrom start) i
  else if ← atFunction then
    let f ← functionDeclaration r declStart [] .defaultExport
    let f := if isPure then { f with isPure := true } else f
    return .exportDefault (← spanFrom start) (.function f)
  else
    let value ← r.assignment
    semicolon
    return .exportDefaultValue (← spanFrom start) value

/-- An export that only typed modules know, or `none` if none stands here. -/
def typedExport? (start : Nat) : Parser (Option Stmt) := do
  if !(← dialect).types then return none
  let t ← peek
  if ← eatMark "=" then
    let value ← r.assignment
    semicolon
    return some (.exportAssign (← spanFrom start) value)
  else if t.isWord "as" && (← nextIs fun u => u.isWord "namespace") then
    advance
    advance
    let n ← anyWord
    semicolon
    return some (.exportGlobal (← spanFrom start) n)
  else if t.isWord "import" then
    let declStart ← startOffset
    advance
    let decl ← importAliasFrom declStart
    return some (.exportDecl (← spanFrom start) decl)
  else if t.isWord "type" && (← nextIs fun u => u.isMark "\x7b") then
    advance
    some <$> exportListFrom start true
  else if t.isWord "type" && (← nextIs fun u => u.isMark "*") then
    advance
    some <$> exportAllFrom start true
  else return none

/-- An export, behind decorators that may stand in front of it. -/
def exportStatement (decs : List Decorator) : Parser Stmt := do
  let start ← startOffset
  expectWord "export"
  if ← eatWord "default" then exportDefaultFrom r start decs
  else if (← atMark "@") || !decs.isEmpty then
    let declStart ← startOffset
    let c ← decoratedClass r declStart (← moreDecorators r decs)
    return .exportDecl (← spanFrom start) (.classDecl c)
  else if ← atMark "\x7b" then exportListFrom start false
  else if ← atMark "*" then exportAllFrom start false
  else
    match ← typedExport? r start with
    | some s => return s
    | none =>
      let decl ← declaration r
      return .exportDecl (← spanFrom start) decl

end

end Parser

end ComponentLowering.Syntax
