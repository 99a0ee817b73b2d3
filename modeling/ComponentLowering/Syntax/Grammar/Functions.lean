/-
# The grammar of functions

Functions, methods and arrow functions, with their bodies.
-/
import ComponentLowering.Syntax.Grammar.Types

namespace ComponentLowering.Syntax

open ComponentLowering.Text ComponentLowering.Number

/-- An expression that is noted to make a function, whose calls are pure then. -/
def Expr.notePureFunction : Expr → Expr
  | .function f => .function { f with isPure := true }
  | .arrow f => .arrow { f with isPure := true }
  | e => e

/-- Whether a parameter takes all further arguments. -/
def Param.isRest (p : Param) : Bool :=
  match p.target with
  | .rest _ _ => true
  | _ => false

/-- Whether a parameter has a default value. -/
def Param.hasDefault (p : Param) : Bool :=
  match p.target with
  | .withDefault _ _ _ => true
  | _ => false

/-- Whether the parameters of a getter or a setter are what they have to be: a getter names none,
and a setter has one that has no default value and does not take all further arguments. -/
def Func.fitsAccessor (kind : MethodKind) (fn : Func) : Bool :=
  match kind with
  | .getter => fn.params.all (·.isRest)
  | .setter =>
    match fn.params with
    | [p] => !p.isRest && !p.hasDefault
    | _ => false
  | _ => true

namespace Parser

/-- What a function admits from its type parameters on. -/
def functionSurroundings (isAsync isGenerator : Bool) (c : Surroundings) : Surroundings :=
  { c with
    allowIn := true, isAwait := isAsync, isYield := isGenerator, arrowBeforeColon := false
    noChoiceType := false }

/-- What the statements of a function admit. -/
def bodySurroundings (c : Surroundings) : Surroundings :=
  { c with isFunction := true, isSingle := false, arrowBeforeColon := false }

section

variable (r : Rules)

/-! ### Bodies -/

/-- Divides the statements of a body, each with its raw text if a string begins it, into the
directives at its start and the rest. -/
def splitDirectives : List (Option (List Char) × Stmt) → List Directive × List Stmt
  | (some raw, .expression span (.string _ _)) :: rest =>
    let (ds, body) := splitDirectives rest
    (⟨span, String.ofList (raw.drop 1).dropLast⟩ :: ds, body)
  | items => ([], items.map (·.2))

/-- The directives and statements up to a token, which is left. -/
def bodyUpTo (isEnd : Token → Bool) : Parser (List Directive × List Stmt) := do
  let items ← collect do
    let t ← peek
    if isEnd t then return none
    ensure (t.lexeme != .endOfText)
    let raw ← match t.lexeme with
      | .string _ => some <$> tokenText
      | _ => pure none
    return some (raw, ← r.statement)
  return splitDirectives items

/-- Statements up to a closing brace, which is left. -/
def statements : Parser (List Stmt) :=
  collect do
    if ← atMark "\x7d" then return none
    ensure ((← peek).lexeme != .endOfText)
    return some (← r.statement)

/-- A body in braces. -/
def braceBody : Parser Body := do
  let start ← startOffset
  expectMark "\x7b"
  let (ds, body) ← bodyUpTo r fun t => t.isMark "\x7d"
  expectMark "\x7d"
  return .block (← spanFrom start) ds body

/-- The body of a function in braces. -/
def functionBlock : Parser Body := within bodySurroundings (braceBody r)

/-! ### Functions with a keyword or a key -/

/-- Where a function stands, which decides whether it needs a name and what its parameters may
declare. -/
inductive FunctionRole where
  | declaration | defaultExport | expression | method | constructor
deriving DecidableEq

/-- The parts of a function behind its name.  A typed module may leave out the body. -/
def functionRest (start : Nat) (name : Option Ident) (declared isAsync isGenerator : Bool)
    (role : FunctionRole) : Parser Func :=
  within (functionSurroundings isAsync isGenerator) do
    let typeParams ← typeParameters r
    let (receiver, params) ← parameters r (role == .constructor)
    let returnType ← returnTypeAnnotation r
    let body ← if ← atMark "\x7b" then functionBlock r
      else do
        ensure (← dialect).types
        semicolon
        pure .missing
    return ⟨← spanFrom start, name, declared, isAsync, isGenerator, false, false, typeParams,
      receiver, params, returnType, body⟩

/-- Whether a function has no body. -/
def lacksBody (fn : Func) : Bool :=
  match fn.body with
  | .missing => true
  | _ => false

/-- The name of a function, which only declarations need. -/
def functionName (role : FunctionRole) (isAsync isGenerator : Bool) : Parser (Option Ident) := do
  if isNameWord (← peek) then
    if role == .expression then
      within (fun c => { c with isAwait := isAsync, isYield := isGenerator }) (some <$> name)
    else some <$> name
  else
    ensure (role != .declaration)
    return none

/-- A function from the word `function` on.  One that is only declared has no body and is no
generator. -/
def functionFrom (start : Nat) (declared isAsync : Bool) (role : FunctionRole) :
    Parser Func := do
  expectWord "function"
  let isGenerator ← eatMark "*"
  let n ← functionName role isAsync isGenerator
  let fn ← functionRest r start n declared isAsync isGenerator role
  ensure (!declared || (lacksBody fn && !isGenerator))
  return fn

/-! ### Arrow functions -/

/-- The body of an arrow function, from the arrow on.  It admits the operator `in` where the
function does. -/
def arrowRest (start : Nat) (isAsync : Bool) (typeParams : List TypeNode) (params : List Param)
    (returnType : Option TypeNode) : Parser Expr := do
  ensure (!(← peek).afterNewline)
  expectMark "=>"
  let body ← within (fun c => { c with isAwait := isAsync, isYield := false }) do
    if ← atMark "\x7b" then functionBlock r else .value <$> r.assignment
  return .arrow ⟨← spanFrom start, none, false, isAsync, false, false, false, typeParams, [],
    params, returnType, body⟩

/-- An arrow function whose parameters stand in parentheses. -/
def parenArrow (isAsync : Bool) : Parser Expr := do
  let start ← startOffset
  if isAsync then advance
  let colonFollows := (← read).arrowBeforeColon
  let (typeParams, receiver, params, returnType) ←
    within (fun c => { c with isAwait := c.isAwait || isAsync }) do
      let typeParams ← typeParameters r
      let (receiver, params) ← parameters r false
      return (typeParams, receiver, params, ← returnTypeAnnotation r)
  ensure receiver.isEmpty
  let e ← arrowRest r start isAsync typeParams params returnType
  ensure (!colonFollows || returnType.isNone || (← atMark ":"))
  return e

/-- An arrow function with one bare parameter. -/
def bareArrow (isAsync : Bool) : Parser Expr := do
  let start ← startOffset
  if isAsync then advance
  let n ← within (fun c => { c with isAwait := c.isAwait || isAsync }) name
  let param : Param := ⟨n.span, [], none, false, false, .ident n.span n.name, false, none⟩
  arrowRest r start isAsync [] [param] none

/-- Whether an arrow function begins at a token. -/
inductive ArrowOutlook where
  | impossible | possible | certain
deriving DecidableEq

/-- The outlook behind an opening parenthesis and a word. -/
def outlookBehindWord (second : Token) : Parser ArrowOutlook := do
  let third ← peek
  if second.isWordOf modifierWords && !second.isWord "async" && isNameWord third then
    return if third.isWord "as" then .impossible else .certain
  else if !isNameWord second && !second.isWord "this" then return .impossible
  else if third.isMark ":" then return .certain
  else if third.isMark "?" then
    skip
    return if (← peek).isMarkOf [":", ",", "=", ")"] then .certain else .impossible
  else if third.isMarkOf [",", "=", ")"] then return .possible
  else return .impossible

/-- The outlook behind an opening parenthesis. -/
def outlookBehindParen : Parser ArrowOutlook := do
  let second ← peek
  if second.isMarkOf ["[", "\x7b"] then return .possible
  skip
  if second.isMark ")" then
    return if (← peek).isMarkOf ["=>", ":", "\x7b"] then .certain else .impossible
  else if second.isMark "..." then
    return if isNameWord (← peek) then .certain else .possible
  else outlookBehindWord second

/-- The outlook behind an opening angle bracket.  Where markup is allowed, type parameters need a
comma, a default or a bound. -/
def outlookBehindAngle : Parser ArrowOutlook := do
  let second ← peek
  if !second.isWord "const" && !isNameWord second then return .impossible
  else if (← dialect).markup then
    skip
    if second.isWord "const" then skip
    let third ← peek
    if third.isWord "extends" then
      skip
      return if (← peek).isMarkOf ["=", ">", "/"] then .impossible else .certain
    else return if third.isMarkOf [",", "="] then .certain else .impossible
  else return .possible

/-- What the tokens here tell about an arrow function with parameters in parentheses. -/
def arrowOutlook : Parser ArrowOutlook :=
  probe .impossible do
    if ← atWord "async" then
      skip
      if (← peek).afterNewline then return .impossible
    let t ← peek
    if t.isMark "(" then
      skip
      outlookBehindParen
    else if t.isMark "<" && (← dialect).types then
      skip
      outlookBehindAngle
    else return .impossible

/-- Tries an arrow function with parameters in parentheses, and notes if none begins here. -/
def tryParenArrow (isAsync : Bool) : Parser (Option Expr) := do
  let start ← startOffset
  if (← get).refuted.contains start then return none
  match ← attempt (parenArrow r isAsync) with
  | some e => return some e
  | none =>
    modify fun s => { s with refuted := start :: s.refuted }
    return none

/-- Whether the word `async` and a name stand here in front of an arrow. -/
def atAsyncBareArrow : Parser Bool :=
  probe false do
    skip
    let t ← peek
    if t.afterNewline || t.isMark "=>" then return false
    skip
    return isNameWord t && (← atMark "=>")

/-- An arrow function, if one stands here. -/
def arrow? : Parser (Option Expr) := do
  let t ← peek
  let isAsync := t.isWord "async"
  match ← arrowOutlook with
  | .certain =>
    within (fun c => { c with arrowBeforeColon := false }) (some <$> parenArrow r isAsync)
  | .possible => tryParenArrow r isAsync
  | .impossible =>
    if isAsync && (← atAsyncBareArrow) then some <$> bareArrow r true
    else if isNameWord t && (← nextIs fun u => u.isMark "=>" && !u.afterNewline) then
      some <$> bareArrow r false
    else return none

end

end Parser

end ComponentLowering.Syntax
