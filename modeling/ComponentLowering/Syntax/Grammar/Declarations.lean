/-
# The grammar of declarations

Variables, functions, classes, and what only typed modules declare: type aliases, interfaces,
enumerations and namespaces.
-/
import ComponentLowering.Syntax.Grammar.Markup

namespace ComponentLowering.Syntax

open ComponentLowering.Text ComponentLowering.Number

/-- Whether a pattern takes its value apart. -/
def Pattern.isDestructuring : Pattern → Bool
  | .object _ _ | .array _ _ => true
  | _ => false

/-- Whether a variable keeps its value, or holds what is disposed of at the end of the block. -/
def VariableKind.isUsing : VariableKind → Bool
  | .using | .awaitUsing => true
  | _ => false

/-- Whether a variable has the value that its kind or its pattern asks for. -/
def Declarator.isInitialized (kind : VariableKind) (d : Declarator) : Bool :=
  d.value.isSome || (kind != .const && !d.target.isDestructuring)

/-- Notes that the function in the first variable of a list is pure. -/
def notePureFirst : List Declarator → List Declarator
  | d :: rest => { d with value := d.value.map Expr.notePureFunction } :: rest
  | [] => []

/-- A statement that is noted to make a function, whose calls are pure then. -/
def Stmt.notePureFunction : Stmt → Stmt
  | .function f => .function { f with isPure := true }
  | .variableDecl span declared .const items => .variableDecl span declared .const
      (notePureFirst items)
  | .exportDecl span (.function f) => .exportDecl span (.function { f with isPure := true })
  | .exportDecl span (.variableDecl declSpan declared .const items) =>
    .exportDecl span (.variableDecl declSpan declared .const (notePureFirst items))
  | .exportDefault span (.function f) => .exportDefault span (.function { f with isPure := true })
  | .exportDefaultValue span value => .exportDefaultValue span value.notePureFunction
  | s => s

namespace Parser

section

variable (r : Rules)

/-! ### Variables -/

/-- One variable of a declaration.  A variable that is said to have a value has a type and shows no
value. -/
def declarator : Parser Declarator := do
  let start ← startOffset
  let target ← r.pattern
  let typed := (← dialect).types
  let t ← peek
  let definite ← if typed && !target.isDestructuring && !t.afterNewline then eatMark "!"
    else pure false
  let optional ← if typed then eatMark "?" else pure false
  let type ← typeAnnotation r
  let value ← if ← eatMark "=" then some <$> r.assignment else pure none
  ensure !(definite && (type.isNone || value.isSome))
  return ⟨← spanFrom start, target, definite, optional, type, value⟩

/-- Whether a token may begin the name of what is disposed of, behind the word `using`. -/
def namesUsed (t : Token) : Bool :=
  isNameWord t && !t.afterNewline && !t.isWordOf ["of", "in", "as"]

/-- Whether the word `using` begins a declaration here. -/
def atUsing : Parser Bool := probeNext namesUsed

/-- Whether the words `await using` begin a declaration here. -/
def atAwaitUsing : Parser Bool :=
  probe false do
    skip
    let t ← peek
    if !t.isWord "using" || t.afterNewline then return false
    skip
    return namesUsed (← peek)

/-- The kind of the variable declaration that begins here.  The word `let` has to be known to begin
one. -/
def variableKind? (isLet : Bool) : Parser (Option VariableKind) := do
  let t ← peek
  if t.isWord "var" then return some .var
  else if t.isWord "const" then return some .const
  else if t.isWord "let" then return if isLet then some .let else none
  else if t.isWord "using" then return if ← atUsing then some .using else none
  else if t.isWord "await" && (← read).isAwait then
    return if ← atAwaitUsing then some .awaitUsing else none
  else return none

/-- The variables behind their keyword, which is the current token. -/
def variableList (kind : VariableKind) : Parser (List Declarator) := do
  advance
  if kind == .awaitUsing then advance
  let items ← separated "," (declarator r)
  ensure (!kind.isUsing || items.all fun d => !d.target.isDestructuring)
  return items

/-- A declaration of variables.  Outside of ambient code constants, patterns and what is disposed
of need a value. -/
def variableStatement (start : Nat) (declared : Bool) (kind : VariableKind) : Parser Stmt := do
  let items ← variableList r kind
  ensure ((← read).isAmbient || items.all (Declarator.isInitialized kind))
  ensure (!kind.isUsing || items.all fun d => d.value.isSome)
  semicolon
  return .variableDecl (← spanFrom start) declared kind items

/-! ### Types and names -/

/-- The type of an alias.  The word `intrinsic` alone stands for a type that is built in, and with a
dot behind it for the beginning of a name; either is all of the type. -/
def aliasedType : Parser TypeNode := do
  let start ← startOffset
  if ← atWord "intrinsic" then
    if ← nextIs fun u => u.isMark "." then
      let path ← dottedName
      let args ← optionalTypeArgs r
      return .reference (← spanFrom start) path args
    else
      advance
      return .keyword (← spanFrom start) "intrinsic"
  else r.type

/-- A type alias, behind the word `type`. -/
def typeAliasFrom (start : Nat) (declared : Bool) : Parser Stmt := do
  let n ← name
  let params ← typeParameters r
  expectMark "="
  let t ← aliasedType r
  semicolon
  return .typeAlias (← spanFrom start) declared n params t

/-- An interface, behind the word `interface`. -/
def interfaceFrom (start : Nat) : Parser Stmt := do
  let n ← name
  let params ← typeParameters r
  let parents ← if ← eatWord "extends" then interfaceList r ensureName else pure []
  let members ← typeMembers r
  return .interface (← spanFrom start) n params parents members

/-- Whether a key may name a member of an enumeration. -/
def namesEnumMember : Key → Bool
  | .name _ _ | .string _ _ | .computed (.string _ _) | .computed (.template _ _ []) => true
  | _ => false

/-- An enumeration, behind the word `enum`. -/
def enumerationFrom (start : Nat) (declared isConst : Bool) : Parser Stmt := do
  let n ← name
  expectMark "\x7b"
  let members ← commaItems "\x7d" do
    let memberStart ← startOffset
    let key ← propertyKey r
    ensure (namesEnumMember key)
    let value ← if ← eatMark "=" then some <$> bracketed r.assignment else pure none
    return Stmt.enumMember (← spanFrom memberStart) key value
  expectMark "\x7d"
  return .enumeration (← spanFrom start) declared isConst n members

/-- A namespace or module block, behind its introducing word. -/
def moduleBlockFrom (start : Nat) (declared : Bool) (kind : NamespaceKind) : Parser Stmt := do
  match (← peek).lexeme with
  | .string _ =>
    ensure (kind == .moduleBlock)
    let external ← stringLiteral
    let body ← if ← atMark "\x7b" then braceBody r
      else do
        semicolon
        pure Body.missing
    return .moduleBlock (← spanFrom start) declared kind [] (some external) body
  | _ =>
    let path ← if kind == .globalBlock then pure ["global"] else do
      let first ← name
      let more ← collect do
        if ← eatMark "." then return some (← name).name else return none
      pure (first.name :: more)
    let body ← braceBody r
    return .moduleBlock (← spanFrom start) declared kind path none body

/-- Whether a token is a word that is a keyword in some places only. -/
def isContextual (t : Token) : Bool := t.isWordOf contextualWords

/-- Whether a token may begin a declared name on the same line. -/
def namesOnLine (t : Token) : Bool := isNameWord t && !t.afterNewline

/-- Whether a token may begin the name of a module on the same line. -/
def namesModule (t : Token) : Bool :=
  match t.lexeme with
  | .string _ => !t.afterNewline
  | _ => namesOnLine t

/-- An `import x = ...` declaration, behind its first word.  The word `type` may stand in front of
the name. -/
def importAliasFrom (start : Nat) : Parser Stmt := do
  if (← atWord "type") && (← nextIs isNameWord) then advance
  let n ← name
  expectMark "="
  let targetStart ← startOffset
  let target ← if ← eatWord "require" then do
      expectMark "("
      let source ← stringLiteral
      expectMark ")"
      pure (TypeNode.requireModule (← spanFrom targetStart) source)
    else do
      let path ← dottedName
      pure (.reference (← spanFrom targetStart) path [])
  semicolon
  return .importAlias (← spanFrom start) n target

/-! ### Declarations of any kind -/

/-- Whether a declaration that only typed modules hold begins here, or one behind modifiers that
only typed modules know. -/
def atTypedDeclaration : Nat → Parser Bool
  | 0 => return false
  | fuel + 1 => do
    let t ← peek
    if t.isWordOf ["var", "let", "const", "function", "class", "enum"] then return true
    else if t.isWordOf ["interface", "type"] then
      skip
      return namesOnLine (← peek)
    else if t.isWordOf ["module", "namespace"] then
      skip
      return namesModule (← peek)
    else if t.isWord "global" then
      skip
      let u ← peek
      return u.isMark "\x7b" || u.isWord "export" || (isNameWord u && !isContextual u)
    else if t.isWord "import" then
      skip
      let u ← peek
      return namesModule { u with afterNewline := false } || u.isMarkOf ["*", "\x7b"]
    else if t.isWord "static" then
      skip
      atTypedDeclaration fuel
    else if t.isWordOf ["abstract", "accessor", "async", "declare", "private", "protected",
        "public", "readonly"] then
      skip
      if (← peek).afterNewline then return false else atTypedDeclaration fuel
    else return false

/-- Modifiers in front of a declaration.  The word `const` is one in front of an enumeration. -/
def declarationModifiers : Parser (List String) := do
  if !(← dialect).types then return []
  let words ← modifiers
  if (← atWord "const") && (← nextIs fun u => u.isWord "enum") then
    return words ++ [← takeWord]
  else return words

/-- Whether a function begins here. -/
def atFunction : Parser Bool := do
  if ← atWord "function" then return true
  else if ← atWord "async" then probeNext fun u => u.isWord "function" && !u.afterNewline
  else return false

/-- A function declaration behind its modifiers. -/
def functionDeclaration (start : Nat) (words : List String) (role : FunctionRole) :
    Parser Func := do
  allowOnly ["declare", "async"] words
  let isAsync ← eatWord "async"
  functionFrom r start (words.contains "declare") (isAsync || words.contains "async") role

/-- A class declaration behind its modifiers. -/
def classDeclaration (start : Nat) (decs : List Decorator) (words : List String) :
    Parser ClassDef := do
  allowOnly ["declare", "abstract"] words
  classFrom r start decs (words.contains "declare") (words.contains "abstract")

/-- A declaration that only typed modules hold, behind its modifiers. -/
def typedDeclaration (start : Nat) (words : List String) : Parser Stmt := do
  ensure (← dialect).types
  let declared := words.contains "declare"
  allowOnly (if ← atWord "enum" then ["declare", "const"] else ["declare"]) words
  match ← takeWord with
  | "type" => typeAliasFrom r start declared
  | "interface" => interfaceFrom r start
  | "enum" => enumerationFrom r start declared (words.contains "const")
  | "namespace" => moduleBlockFrom r start declared .namespaceBlock
  | "module" => moduleBlockFrom r start declared .moduleBlock
  | "global" => moduleBlockFrom r start declared .globalBlock
  | "import" => importAliasFrom start
  | _ => failure

/-- A declaration behind its modifiers. -/
def declarationFrom (start : Nat) (words : List String) : Parser Stmt :=
  within (fun c => { c with isAmbient := c.isAmbient || words.contains "declare" }) do
    let t ← peek
    if t.isWord "class" then .classDecl <$> classDeclaration r start [] words
    else if ← atFunction then .function <$> functionDeclaration r start words .declaration
    else if t.isWordOf ["var", "let", "const"] then
      allowOnly ["declare"] words
      match ← variableKind? true with
      | some kind => variableStatement r start (words.contains "declare") kind
      | none => failure
    else typedDeclaration r start words

/-- A declaration with its modifiers. -/
def declaration : Parser Stmt := do
  let start ← startOffset
  let words ← declarationModifiers
  declarationFrom r start words

/-- A decorated class, behind its decorators. -/
def decoratedClass (start : Nat) (decs : List Decorator) : Parser ClassDef := do
  classDeclaration r start decs (← declarationModifiers)

end

end Parser

end ComponentLowering.Syntax
