/-
# The grammar of statements

Control flow and the choice between the kinds of statements, and with them the grammar as a whole:
`rules` ties the parsers for nested syntax together, for a bounded depth of nesting.
-/
import ComponentLowering.Syntax.Grammar.Imports

namespace ComponentLowering.Syntax

open ComponentLowering.Text ComponentLowering.Number

namespace Parser

section

variable (r : Rules)

/-- A statement that is the whole body of another one. -/
def singleStatement : Parser Stmt := within (fun c => { c with isSingle := true }) r.statement

/-- A block of statements. -/
def blockStatement : Parser Stmt := do
  let start ← startOffset
  expectMark "\x7b"
  let body ← statements r
  expectMark "\x7d"
  return .block (← spanFrom start) body

/-- The expression in parentheses behind the word of a statement. -/
def headExpression : Parser Expr := do
  expectMark "("
  let e ← expression r
  expectMark ")"
  return e

/-! ### Control flow -/

/-- An `if` statement. -/
def branchStatement : Parser Stmt := do
  let start ← startOffset
  advance
  let test ← headExpression r
  let yes ← singleStatement r
  let no ← if ← eatWord "else" then some <$> singleStatement r else pure none
  return .branch (← spanFrom start) test yes no

/-- The rest of a `for` statement with three parts, behind its first part. -/
def forRest (start : Nat) (init : Option Stmt) : Parser Stmt := do
  expectMark ";"
  let test ← if ← atMark ";" then pure none else some <$> bracketed (expression r)
  expectMark ";"
  let update ← if ← atMark ")" then pure none else some <$> bracketed (expression r)
  expectMark ")"
  let body ← singleStatement r
  return .forLoop (← spanFrom start) init test update body

/-- The rest of a loop over values or keys, behind its variable. -/
def forEachRest (start : Nat) (isAwait : Bool) (left : Stmt) : Parser Stmt := do
  if ← eatWord "of" then
    let right ← r.assignment
    expectMark ")"
    let body ← singleStatement r
    return .forOf (← spanFrom start) isAwait left right body
  else
    ensure (!isAwait)
    expectWord "in"
    let right ← expression r
    expectMark ")"
    let body ← singleStatement r
    return .forIn (← spanFrom start) left right body

/-- Whether a loop over values or keys goes on here. -/
def atForEach : Parser Bool := return (← peek).isWordOf ["of", "in"]

/-- Whether the word `let` here begins the declaration in the head of a loop. -/
def letBeginsHead : Parser Bool := do
  if ← atWord "let" then
    probeNext fun u =>
      (isAnyWord u && !u.isWordOf ["in", "instanceof"]) || u.isMarkOf ["\x7b", "["]
  else return false

/-- A `for` statement with variables of its own, from their keyword on. -/
def forDeclared (start : Nat) (isAwait : Bool) (kind : VariableKind) : Parser Stmt := do
  let declStart ← startOffset
  let items ← within (fun c => { c with allowIn := false }) (variableList r kind)
  let decl := Stmt.variableDecl (← spanFrom declStart) false kind items
  if ← atForEach then
    ensure !(kind.isUsing && (← atWord "in"))
    forEachRest r start isAwait decl
  else
    ensure (!isAwait && ((← read).isAmbient || items.all (Declarator.isInitialized kind)))
    forRest r start (some decl)

/-- Whether the words `async of` stand here, which look like the beginning of a function. -/
def atAsyncOf : Parser Bool := do
  let t ← peek
  if t.isWord "async" && !t.isEscaped then probeNext fun u => u.isWord "of" else return false

/-- A `for` statement that begins with an expression.  The name `async` alone is no variable of a
loop unless the loop waits for the values. -/
def forExpression (start : Nat) (isAwait : Bool) : Parser Stmt := do
  let asyncOf ← atAsyncOf
  let head ← within (fun c => { c with allowIn := false }) (expression r)
  if ← atForEach then
    ensure (isAwait || !asyncOf)
    let target ← toTarget head
    forEachRest r start isAwait (.assignee target)
  else
    ensure (!isAwait)
    forRest r start (some (.expression head.span head))

/-- A `for` statement of any kind. -/
def forStatement : Parser Stmt := do
  let start ← startOffset
  advance
  let isAwait ← if (← read).isAwait then eatWord "await" else pure false
  expectMark "("
  if ← atMark ";" then
    ensure (!isAwait)
    forRest r start none
  else
    let isLet ← letBeginsHead
    match ← variableKind? isLet with
    | some kind => forDeclared r start isAwait kind
    | none => forExpression r start isAwait

/-- A `while` statement. -/
def whileStatement : Parser Stmt := do
  let start ← startOffset
  advance
  let test ← headExpression r
  let body ← singleStatement r
  return .whileLoop (← spanFrom start) test body

/-- A `do` statement; its semicolon may always be left out. -/
def doStatement : Parser Stmt := do
  let start ← startOffset
  advance
  let body ← singleStatement r
  expectWord "while"
  let test ← headExpression r
  let _ ← eatMark ";"
  return .doWhile (← spanFrom start) body test

/-- A jump, with the label it goes to. -/
def jumpStatement (make : Span → Option Ident → Stmt) : Parser Stmt := do
  let start ← startOffset
  advance
  let t ← peek
  let label ← if isNameWord t && !t.afterNewline then some <$> name else pure none
  semicolon
  return make (← spanFrom start) label

/-- A `return` statement. -/
def returnStatement : Parser Stmt := do
  let start ← startOffset
  ensure (← read).isFunction
  advance
  let t ← peek
  let value ← if t.isMarkOf [";", "\x7d"] || t.lexeme == .endOfText || t.afterNewline then pure none
    else some <$> bracketed (expression r)
  semicolon
  return .returnValue (← spanFrom start) value

/-- A `throw` statement. -/
def throwStatement : Parser Stmt := do
  let start ← startOffset
  advance
  ensure (!(← peek).afterNewline)
  let value ← expression r
  semicolon
  return .throwValue (← spanFrom start) value

/-- A `with` statement. -/
def withStatement : Parser Stmt := do
  let start ← startOffset
  advance
  let object ← headExpression r
  let body ← singleStatement r
  return .withObject (← spanFrom start) object body

/-- A case of a `switch` statement. -/
def switchCase : Parser Stmt := do
  let start ← startOffset
  let test ← if ← eatWord "default" then pure none
    else do
      expectWord "case"
      some <$> expression r
  expectMark ":"
  let body ← collect do
    let t ← peek
    if t.isMark "\x7d" || t.isWordOf ["case", "default"] then return none
    ensure (t.lexeme != .endOfText)
    return some (← r.statement)
  return .switchCase (← spanFrom start) test body

/-- A `switch` statement. -/
def switchStatement : Parser Stmt := do
  let start ← startOffset
  advance
  let value ← headExpression r
  expectMark "\x7b"
  let cases ← collect do
    if ← atMark "\x7d" then return none
    return some (← switchCase r)
  expectMark "\x7d"
  return .switchOn (← spanFrom start) value cases

/-- A `catch` clause, behind its word. -/
def catchClause (start : Nat) : Parser Stmt := do
  let param ← if ← eatMark "(" then do
      let paramStart ← startOffset
      let target ← r.pattern
      let type ← typeAnnotation r
      let p : Param := ⟨← spanFrom paramStart, [], none, false, false, target, false, type⟩
      expectMark ")"
      pure (some p)
    else pure none
  let body ← blockStatement r
  return .catchClause (← spanFrom start) param body

/-- A `try` statement. -/
def tryStatement : Parser Stmt := do
  let start ← startOffset
  advance
  let block ← blockStatement r
  let catchStart ← startOffset
  let handler ← if ← eatWord "catch" then some <$> catchClause r catchStart else pure none
  let finalizer ← if ← eatWord "finally" then some <$> blockStatement r else pure none
  ensure (handler.isSome || finalizer.isSome)
  return .tryCatch (← spanFrom start) block handler finalizer

/-- A statement that begins with an expression: a labeled or an expression statement. -/
def expressionStatement : Parser Stmt := do
  let start ← startOffset
  let t ← peek
  if isNameWord t && (← nextIs fun u => u.isMark ":") then
    let label ← name
    expectMark ":"
    let body ← singleStatement r
    return .labeled (← spanFrom start) label body
  else
    let value ← expression r
    semicolon
    return .expression (← spanFrom start) value

/-! ### Statements -/

/-- A statement that begins with decorators. -/
def decoratedStatement (isSingle : Bool) : Parser Stmt := do
  let start ← startOffset
  let decs ← decorators r
  if ← atWord "export" then exportStatement r decs
  else
    ensure !isSingle
    return .classDecl (← decoratedClass r start decs)

/-- A declaration that only typed modules hold, or a statement that begins with an expression.
Inside the former `await` is a name. -/
def typedStatement : Parser Stmt := do
  if (← dialect).types && (← probe false (atTypedDeclaration ((← bound) + 1))) then
    within (fun c => { c with isAwait := false }) (declaration r)
  else expressionStatement r

/-- A statement that begins with the word of a variable declaration, if one stands here.  A
statement that is the whole body of another one declares no block variable. -/
def variableOr (isLet isSingle : Bool) (otherwise : Parser Stmt) : Parser Stmt := do
  let start ← startOffset
  match ← variableKind? isLet with
  | some kind =>
    ensure (kind == .var || kind.isUsing || !isSingle)
    variableStatement r start false kind
  | none => otherwise

/-- A class.  No class is the whole body of another statement. -/
def classStatement (isSingle : Bool) : Parser Stmt := do
  let start ← startOffset
  ensure !isSingle
  return .classDecl (← classDeclaration r start [] [])

/-- A function.  A statement that is the whole body of another one declares only a plain one. -/
def functionStatement (isSingle : Bool) : Parser Stmt := do
  let start ← startOffset
  let fn ← functionDeclaration r start [] .declaration
  ensure !(isSingle && (fn.isGenerator || fn.isAsync))
  return .function fn

/-- Whether a token is an operator that shows that the word `let` in front of it is a name. -/
def operatesOnLet (t : Token) : Bool :=
  t.isWordOf ["in", "instanceof"] || (assignOp? t).isSome ||
    (isBinaryToken t && !t.isMarkOf ["??", "||", "&&"] && !t.isWordOf ["as", "satisfies"])

/-- A statement that begins with the word `let`, which is a name in front of some tokens.  In front
of a dot or arguments the statement ends with its expression. -/
def letStatement (isSingle : Bool) : Parser Stmt := do
  let start ← startOffset
  if ← probeNext fun u => u.isMarkOf ["(", "."] then
    let value ← expression r
    return .expression (← spanFrom start) value
  else if ← nextIs operatesOnLet then
    let value ← r.assignment
    semicolon
    return .expression (← spanFrom start) value
  else if ← nextIs fun u => u.isMark ";" || (isSingle && !u.isMark "[") then
    let n ← name
    semicolon
    return .expression (← spanFrom start) (.ident n.span n.name)
  else variableOr r true isSingle (expressionStatement r)

/-- The statement or declaration that begins with a word. -/
def wordStatement (isSingle : Bool) (word : String) : Parser Stmt := do
  match word with
  | "if" => branchStatement r
  | "for" => forStatement r
  | "while" => whileStatement r
  | "do" => doStatement r
  | "continue" => jumpStatement .continueTo
  | "break" => jumpStatement .breakTo
  | "return" => returnStatement r
  | "with" => withStatement r
  | "switch" => switchStatement r
  | "throw" => throwStatement r
  | "try" => tryStatement r
  | "debugger" =>
    let start ← startOffset
    advance
    semicolon
    return .debugger (← spanFrom start)
  | "class" => classStatement r isSingle
  | "function" => functionStatement r isSingle
  | "import" =>
    if ← probeNext fun u => u.isMarkOf ["(", "."] then expressionStatement r
    else importStatement
  | "export" => exportStatement r []
  | "let" => letStatement r isSingle
  | "async" => if ← atFunction then functionStatement r isSingle else typedStatement r
  | "const" =>
    if (← dialect).types && (← nextIs fun u => u.isWord "enum") then typedStatement r
    else variableOr r false isSingle (expressionStatement r)
  | "var" | "using" | "await" => variableOr r false isSingle (expressionStatement r)
  | "type" | "interface" | "enum" | "namespace" | "module" | "declare" | "private" | "protected"
  | "public" | "abstract" | "accessor" | "static" | "readonly" | "global" => typedStatement r
  | _ => expressionStatement r

/-- A statement or declaration. -/
def statementRule : Parser Stmt := do
  let t ← peek
  let isPure := (← get).newest.notesPureFunction
  let isSingle := (← read).isSingle
  let s ← within (fun c => { c with isSingle := false }) do
    match t.lexeme with
    | .mark "\x7b" => blockStatement r
    | .mark ";" =>
      advance
      return .empty t.span
    | .mark "@" => decoratedStatement r isSingle
    | .word n escaped =>
      if escaped && n == "let" then expressionStatement r else wordStatement r isSingle n
    | _ => expressionStatement r
  return if isPure then s.notePureFunction else s

end

/-- The parsers for nested syntax, for a bounded depth of nesting. -/
def rules : Nat → Rules
  | 0 =>
    { assignment := failure, unary := failure, leftHand := failure, callee := failure,
      pattern := failure, type := failure, statement := failure, markup := fun _ => failure }
  | depth + 1 =>
    { assignment := fun c s => assignmentExpr (rules depth) c s
      unary := fun c s => unaryExpr (rules depth) c s
      leftHand := fun c s => leftHandExpr (rules depth) c s
      callee := fun c s => calleeExpr (rules depth) c s
      pattern := fun c s => bindingPattern (rules depth) c s
      type := fun c s => typeRule (rules depth) c s
      statement := fun c s => statementRule (rules depth) c s
      markup := fun leave c s => markupElement (rules depth) leave c s }

end Parser

end ComponentLowering.Syntax
