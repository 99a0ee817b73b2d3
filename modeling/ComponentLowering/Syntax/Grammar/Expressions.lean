/-
# The grammar of expressions

Literals, operators, calls and members.  What follows an opening parenthesis decides whether an
arrow function is tried first.
-/
import ComponentLowering.Syntax.Grammar.Classes

namespace ComponentLowering.Syntax

open ComponentLowering.Text ComponentLowering.Number

namespace Expr

/-- Whether an expression is a function in plain parentheses, which keeps them when printed. -/
def markParenthesized : Expr → Expr
  | .function f => .function { f with parenthesized := true }
  | .arrow f => .arrow { f with parenthesized := true }
  | e => e

/-- Whether an expression is a call of `import`. -/
def isImportCall : Expr → Bool
  | .importCall _ _ _ _ => true
  | _ => false

/-- Notes that the call or the construction with which an expression begins, whatever types are
claimed for it, is pure. -/
def notePureCall : Expr → Expr
  | .call span callee types args optional _ => .call span callee types args optional true
  | .construct span callee types args _ => .construct span callee types args true
  | .paren span inner => .paren span inner.notePureCall
  | .asType span inner type => .asType span inner.notePureCall type
  | .satisfies span inner type => .satisfies span inner.notePureCall type
  | .typeAssertion span type inner => .typeAssertion span type inner.notePureCall
  | .nonNull span inner => .nonNull span inner.notePureCall
  | .instantiate span inner args => .instantiate span inner.notePureCall args
  | .binary span op left right => .binary span op left.notePureCall right
  | .choice span test yes no => .choice span test.notePureCall yes no
  | .chain span (.call callSpan callee types args optional _) =>
    .chain span (.call callSpan callee types args optional true)
  | e => e

end Expr

namespace Parser

/-! ### Targets of assignments -/

/-- The place that an expression denotes, if a value can be assigned to it. -/
def simpleTarget : Nat → Expr → Option Pattern
  | 0, _ => none
  | fuel + 1, e =>
    match e with
    | .ident s n => some (.ident s n)
    | .member _ _ _ false | .privateMember _ _ _ false | .index _ _ _ false => some (.place e)
    | .paren _ inner => simpleTarget fuel inner
    | .asType _ inner _ | .satisfies _ inner _ | .nonNull _ inner | .typeAssertion _ _ inner =>
      if inner.untyped.isPlace then some (.place e) else none
    | _ => none

/-- Whether some part of a pattern other than the last collects what is left over. -/
def restInside (parts : List (Pattern × List Nat)) : Bool :=
  parts.dropLast.any fun part => match part.1 with
    | .rest _ _ => true
    | _ => false

/-- The pattern that a literal stands for on the left of an assignment, with the places of the
shorthand defaults that it makes valid.  Any assignment inside gives a default value.  The literals
at the given places end in a comma behind a spread element. -/
def assignTarget (commas : List Nat) : Nat → Expr → Option (Pattern × List Nat)
  | 0, _ => none
  | fuel + 1, e => do
    let element (e : Expr) : Option (Pattern × List Nat) :=
      match e with
      | .assign s _ target value => some (.withDefault s target value, [])
      | e => assignTarget commas fuel e
    match e with
    | .array s items =>
      let parts ← items.mapM fun item => match item with
        | .hole s => some (.hole s, [])
        | .spread s inner => do
          let (t, ds) ← assignTarget commas fuel inner
          some (.rest s t, ds)
        | e => element e
      if restInside parts || commas.contains s.start then none
      else some (.array s (parts.map (·.1)), parts.flatMap (·.2))
    | .object s members =>
      let parts ← members.mapM fun m => match m with
        | .spread s inner => do
          let t ← simpleTarget fuel inner
          some (.rest s t, [])
        | .property s key value shorthand => do
          let (t, ds) ← element value
          some (.property s key t shorthand, if shorthand then s.start :: ds else ds)
        | _ => none
      if restInside parts || commas.contains s.start then none
      else some (.object s (parts.map (·.1)), parts.flatMap (·.2))
    | e => (simpleTarget fuel e).map fun t => (t, [])

/-- Reads an expression as the left side of an assignment. -/
def toTarget (e : Expr) : Parser Pattern := do
  match assignTarget (← get).commaAfterRest ((← bound) + 1) e with
  | none => failure
  | some (target, defaults) =>
    modify fun s => { s with openDefaults := s.openDefaults.filter fun d => !defaults.contains d }
    return target

/-- Notes that a comma was read behind a last spread element of the literal that starts at an
offset. -/
def noteCommaAfterRest (start : Nat) (items : List Expr) : Parser PUnit :=
  modify fun s =>
    match items.getLast? with
    | some (.spread span _) =>
      if s.lastEnd == span.stop then s else { s with commaAfterRest := start :: s.commaAfterRest }
    | _ => s

section

variable (r : Rules)

/-! ### Literals and primary expressions -/

/-- An element of an array literal or an argument: an expression, possibly spread. -/
def spreadable : Parser Expr := do
  let start ← startOffset
  if ← eatMark "..." then
    let value ← r.assignment
    return .spread (← spanFrom start) value
  else r.assignment

/-- An array literal. -/
def arrayLiteral : Parser Expr := do
  let start ← startOffset
  expectMark "["
  let elements ← bracketed <| commaItems "]" do
    let itemStart ← startOffset
    if ← atMark "," then return .hole ⟨itemStart, itemStart⟩ else spreadable r
  noteCommaAfterRest start elements
  expectMark "]"
  return .array (← spanFrom start) elements

/-- A method of an object literal. -/
def objectMethodFrom (start : Nat) (kind : MethodKind) (isAsync isGenerator : Bool) (key : Key) :
    Parser Expr := do
  let fnStart ← startOffset
  let fn ← functionRest r fnStart none false isAsync isGenerator .method
  ensure (fn.fitsAccessor kind)
  return .objectMethod (← spanFrom start) kind key fn

/-- A member of an object literal. -/
def objectMember : Parser Expr := do
  let start ← startOffset
  let t ← peek
  if ← eatMark "..." then
    let value ← r.assignment
    return .spread (← spanFrom start) value
  let isAsync ← if t.isWord "async" &&
      (← nextIs fun u => (startsKey u || u.isMark "*") && !u.afterNewline) then
      advance
      pure true
    else pure false
  let isGenerator ← eatMark "*"
  let t ← peek
  if !isAsync && !isGenerator && t.isWordOf ["get", "set"] && (← nextIs startsKey) then
    advance
    let key ← propertyKey r
    objectMethodFrom r start (if t.isWord "get" then .getter else .setter) false false key
  else
    let key ← propertyKey r
    if isAsync || isGenerator || (← peek).isMarkOf ["(", "<"] then
      objectMethodFrom r start .method isAsync isGenerator key
    else if ← eatMark ":" then
      let value ← r.assignment
      return .property (← spanFrom start) key value false
    else
      match key with
      | .name span n =>
        let c ← read
        ensure (isNameWord t && !(n == "await" && c.isAwait) && !(n == "yield" && c.isYield))
        if ← eatMark "=" then
          let value ← r.assignment
          let whole ← spanFrom start
          modify fun s => { s with openDefaults := start :: s.openDefaults }
          return .property whole key (.assign whole .plain (.ident span n) value) true
        else return .property (← spanFrom start) key (.ident span n) true
      | _ => failure

/-- An object literal. -/
def objectLiteral : Parser Expr := do
  let start ← startOffset
  expectMark "\x7b"
  let members ← bracketed (commaItems "\x7d" (objectMember r))
  noteCommaAfterRest start members
  expectMark "\x7d"
  return .object (← spanFrom start) members

/-- A regular expression whose slash is the current token. -/
def regexLiteral : Parser Expr := do
  let s ← get
  match regexFrom s.fuel ⟨s.text.drop 1, s.token.span.start + 1⟩ with
  | none => failure
  | some (pattern, flags, stop) =>
    let span : Span := ⟨s.token.span.start, stop.offset⟩
    set { s with token := { s.token with lexeme := .invalid, span }, after := stop }
    advance
    return .regex span pattern flags

/-- A template literal without a tag, in which every escape has to be valid. -/
def templateLiteral : Parser Expr := do
  let start ← startOffset
  let (chunks, values) ← templateParts (bracketed (expression r))
  ensure (chunks.all fun c => c.cooked.isSome)
  return .template (← spanFrom start) chunks values

/-- An expression in parentheses. -/
def parenthesized : Parser Expr := do
  let start ← startOffset
  expectMark "("
  let inner ← bracketed (expression r)
  expectMark ")"
  return .paren (← spanFrom start) inner.markParenthesized

/-- Arguments of a construction in parentheses. -/
def constructionArguments : Parser (List Expr) := do
  expectMark "("
  let args ← bracketed (commaItems ")" (spreadable r))
  expectMark ")"
  return args

/-- Arguments of a call in parentheses. -/
def arguments : Parser (List Expr) := undecorated (constructionArguments r)

/-- A call of `import`, or `import.meta`. -/
def importExpr : Parser Expr := do
  let start ← startOffset
  expectWord "import"
  let phase ← if ← eatMark "." then some <$> takeWord else pure none
  if phase == some "meta" then return .metaProperty (← spanFrom start) "import" "meta"
  ensure (phase == none || phase == some "defer" || phase == some "source")
  expectMark "("
  let args ← bracketed (commaItems ")" r.assignment)
  expectMark ")"
  match args with
  | [source] => return .importCall (← spanFrom start) phase source none
  | [source, options] => return .importCall (← spanFrom start) phase source (some options)
  | _ => failure

/-- `new`, applied to a class, which no call of `import` is, or followed by `.target`. -/
def newExpr : Parser Expr := do
  let start ← startOffset
  expectWord "new"
  if ← eatMark "." then
    expectWord "target"
    return .metaProperty (← spanFrom start) "new" "target"
  let (callee, typeArgs) := (← r.callee).splitTypeArgs
  ensure !callee.isImportCall
  let args ← if ← atMark "(" then constructionArguments r else pure []
  return .construct (← spanFrom start) callee typeArgs args false

/-- An expression that is not built from others by operators. -/
def primary : Parser Expr := do
  let start ← startOffset
  let t ← peek
  match t.lexeme with
  | .string v =>
    advance
    return .string t.span v
  | .number v =>
    advance
    return .number t.span v
  | .bigint ds =>
    advance
    return .bigint t.span ds
  | .template _ _ => templateLiteral r
  | .mark "(" => parenthesized r
  | .mark "[" => arrayLiteral r
  | .mark "\x7b" => objectLiteral r
  | .mark "/" | .mark "/=" => regexLiteral
  | .mark "@" =>
    let decs ← decorators r
    return .classExpr (← classFrom r start decs false false)
  | .word n _ =>
    if n == "this" then
      advance
      return .this t.span
    else if n == "null" then
      advance
      return .null t.span
    else if n == "true" then
      advance
      return .bool t.span true
    else if n == "false" then
      advance
      return .bool t.span false
    else if n == "function" then
      return .function (← functionFrom r start false false .expression)
    else if n == "class" then
      return .classExpr (← classFrom r start [] false false)
    else if n == "new" then newExpr r
    else if n == "import" then importExpr r
    else if n == "super" then
      advance
      ensure ((← peek).isMarkOf ["(", ".", "["])
      return .super t.span
    else if n == "async" &&
        (← nextIs fun u => u.isWord "function" && !u.afterNewline) then
      advance
      return .function (← functionFrom r start false true .expression)
    else
      let n ← name
      return .ident n.span n.name
  | _ => failure

/-! ### Members, calls and operators -/

/-- Keywords that an expression may begin with. -/
def operandWords : List String :=
  ["await", "class", "delete", "false", "function", "import", "in", "new", "null", "super", "this",
    "true", "typeof", "void", "yield"]

/-- Whether a token that follows type arguments begins an expression.  Of the words that are
keywords somewhere only few are taken to begin one. -/
def startsExpression (t : Token) : Bool :=
  match t.lexeme with
  | .word n _ => operandWords.contains n || !isKeyword n
  | .privateName _ | .number _ | .bigint _ | .string _ | .template _ _ => true
  | .mark m => ["(", "[", "\x7b", "/", "/=", "@", "<", "+", "-", "!", "~", "++", "--"].contains m
  | .endOfText | .invalid => false

/-- Whether a token is a binary operator. -/
def isBinaryToken (t : Token) : Bool :=
  t.isWordOf ["in", "instanceof", "as", "satisfies"] ||
    t.isMarkOf ["??", "||", "&&", "|", "^", "&", "==", "!=", "===", "!==", "<", ">", "<=", ">=",
      "<<", ">>", ">>>", "+", "-", "*", "/", "%", "**"]

/-- Type arguments of an expression.  What follows them decides whether they are any. -/
def expressionTypeArgs : Parser (List TypeNode) := do
  let args ← typeArgList r
  ensure !(← atMark ">=")
  closingAngle
  ensure !(← atClosingAngle)
  let t ← peek
  let template := match t.lexeme with
    | .template _ _ => true
    | _ => false
  if t.isMark "(" || template then return args
  let operator := isBinaryToken t && !(t.isWord "in" && (← read).allowIn)
  ensure (!t.isMarkOf ["<", "+", "-"] && (t.afterNewline || operator || !startsExpression t))
  return args

/-- Members, calls and templates behind an expression.  The flags tell whether calls are allowed
and whether an optional link was met. -/
def suffixes (start : Nat) (allowCall : Bool) : Nat → Expr → Bool → Parser (Expr × Bool)
  | 0, _, _ => failure
  | fuel + 1, e, linked => do
    let t ← peek
    let c ← read
    let typed := (← dialect).types
    match t.lexeme with
    | .mark "?." =>
      ensure allowCall
      advance
      let u ← peek
      match u.lexeme with
      | .mark "(" =>
        let args ← arguments r
        let (callee, types) := e.splitTypeArgs
        suffixes start allowCall fuel (.call (← spanFrom start) callee types args true false) true
      | .mark "[" =>
        advance
        let key ← bracketed (expression r)
        expectMark "]"
        suffixes start allowCall fuel (.index (← spanFrom start) e key true) true
      | .mark "<" | .mark "<<" =>
        ensure typed
        let laterTypes ← typeArgs r
        let args ← arguments r
        let (callee, types) := e.splitTypeArgs
        let types := if types.isEmpty then laterTypes else types
        suffixes start allowCall fuel (.call (← spanFrom start) callee types args true false) true
      | .privateName n =>
        advance
        suffixes start allowCall fuel (.privateMember (← spanFrom start) e n true) true
      | _ =>
        let n ← anyWord
        suffixes start allowCall fuel (.member (← spanFrom start) e n true) true
    | .mark "." =>
      advance
      match (← peek).lexeme with
      | .privateName n =>
        advance
        suffixes start allowCall fuel (.privateMember (← spanFrom start) e n false) linked
      | _ =>
        let n ← anyWord
        suffixes start allowCall fuel (.member (← spanFrom start) e n false) linked
    | .mark "[" =>
      if c.isDecorator then return (e, linked)
      else
        advance
        let key ← bracketed (expression r)
        expectMark "]"
        suffixes start allowCall fuel (.index (← spanFrom start) e key false) linked
    | .mark "!" =>
      if typed && !t.afterNewline then
        advance
        suffixes start allowCall fuel (.nonNull (← spanFrom start) e) linked
      else return (e, linked)
    | .template _ _ =>
      ensure (!linked)
      let (chunks, values) ← templateParts (bracketed (expression r))
      suffixes start allowCall fuel (.tagged (← spanFrom start) e [] chunks values) linked
    | .mark "(" =>
      if allowCall then
        let args ← arguments r
        suffixes start allowCall fuel (.call (← spanFrom start) e [] args false false) linked
      else return (e, linked)
    | _ =>
      if typed && t.isMarkOf ["<", "<<"] then
        match ← attempt (expressionTypeArgs r) with
        | none => return (e, linked)
        | some types =>
          match (← peek).lexeme with
          | .template _ _ =>
            ensure (!linked)
            let (chunks, values) ← templateParts (bracketed (expression r))
            suffixes start allowCall fuel (.tagged (← spanFrom start) e types chunks values) linked
          | .mark "(" =>
            if allowCall then
              let args ← arguments r
              suffixes start allowCall fuel (.call (← spanFrom start) e types args false false)
                linked
            else return (.instantiate (← spanFrom start) e types, linked)
          | _ =>
            suffixes start allowCall fuel (.instantiate (← spanFrom start) e types) linked
      else return (e, linked)

/-- A member access or call.  Type arguments at its end are no part of a chain of optional
links. -/
def leftHandExpr : Parser Expr := do
  let start ← startOffset
  let head ← primary r
  let (e, linked) ← suffixes r start true ((← bound) + 1) head false
  if linked then
    match e with
    | .instantiate whole inner args => return .instantiate whole (.chain inner.span inner) args
    | e => return .chain (← spanFrom start) e
  else return e

/-- The operand of `new`, which takes the first arguments for itself. -/
def calleeExpr : Parser Expr := do
  let start ← startOffset
  let head ← primary r
  let (e, _) ← suffixes r start false ((← bound) + 1) head false
  return e

/-- The operator that a prefix token stands for. -/
def unaryOp? (t : Token) : Option UnaryOp :=
  match t.lexeme with
  | .mark "-" => some .negate
  | .mark "+" => some .plus
  | .mark "!" => some .not
  | .mark "~" => some .complement
  | .word "typeof" _ => some .typeOf
  | .word "void" _ => some .void
  | .word "delete" _ => some .delete
  | _ => none

/-- The update operator that a token stands for. -/
def updateOp? (t : Token) : Option UpdateOp :=
  match t.lexeme with
  | .mark "++" => some .increment
  | .mark "--" => some .decrement
  | _ => none

/-- Fails unless a value can be assigned to what an expression denotes. -/
def ensureSimple (e : Expr) : Parser PUnit := do
  ensure (simpleTarget ((← bound) + 1) e).isSome

/-- Whether a token on the same line shows that the word in front of it, which is a name here, was
meant as an operator. -/
def showsOperator (t : Token) : Bool :=
  !t.afterNewline &&
    match t.lexeme with
    | .word n _ => !(["in", "instanceof", "of"].contains n)
    | .number _ | .bigint _ | .string _ => true
    | _ => false

/-- An operand, noted as pure if the token read last says so. -/
def notedPure (operand : Parser Expr) : Parser Expr := do
  let isPure := (← get).newest.notesPureCall
  let e ← operand
  return if isPure then e.notePureCall else e

/-- An operand with a prefix operator, whose token is the current one. -/
def prefixedExpr (op : UnaryOp) : Parser Expr := do
  let start ← startOffset
  advance
  let operand ← notedPure r.unary
  return .unary (← spanFrom start) op operand

/-- A place with an update operator in front of it, whose token is the current one. -/
def prefixedUpdate (op : UpdateOp) : Parser Expr := do
  let start ← startOffset
  advance
  let operand ← r.unary
  ensureSimple operand
  return .update (← spanFrom start) op true operand

/-- An operand whose type is claimed in front of it. -/
def typeAssertionExpr : Parser Expr := do
  let start ← startOffset
  advance
  let target ← r.type
  closingAngle
  let operand ← r.unary
  return .typeAssertion (← spanFrom start) target operand

/-- An operand without prefix operators. -/
def postfixedExpr : Parser Expr := do
  let start ← startOffset
  let e ← leftHandExpr r
  let t ← peek
  match updateOp? t with
  | some op =>
    if t.afterNewline then return e
    else
      ensureSimple e
      advance
      return .update (← spanFrom start) op false e
  | none => return e

/-- The operand of `await`, behind the word. -/
def awaitExpr : Parser Expr := do
  let start ← startOffset
  advance
  let operand ← within (fun c => { c with isAwait := true }) r.unary
  return .await (← spanFrom start) operand

/-- An operand with its prefix and postfix operators. -/
def unaryExpr : Parser Expr := do
  let t ← peek
  match unaryOp? t, updateOp? t with
  | some op, _ => prefixedExpr r op
  | none, some op => prefixedUpdate r op
  | none, none =>
    if t.isMark "<" then
      if (← dialect).markup then r.markup true
      else
        ensure (← dialect).types
        typeAssertionExpr r
    else if t.isWord "await" then
      if (← read).isAwait then awaitExpr r
      else
        ensure !(← nextIs showsOperator)
        postfixedExpr r
    else postfixedExpr r

/-- The binary operator of a token and how tightly it binds. -/
def binaryOp? (allowIn : Bool) (t : Token) : Option (BinaryOp × Nat) :=
  match t.lexeme with
  | .mark "??" => some (.coalesce, 1)
  | .mark "||" => some (.or, 2)
  | .mark "&&" => some (.and, 3)
  | .mark "|" => some (.bitOr, 4)
  | .mark "^" => some (.bitXor, 5)
  | .mark "&" => some (.bitAnd, 6)
  | .mark "==" => some (.equal, 7)
  | .mark "!=" => some (.notEqual, 7)
  | .mark "===" => some (.strictEqual, 7)
  | .mark "!==" => some (.strictNotEqual, 7)
  | .mark "<" => some (.less, 8)
  | .mark "<=" => some (.lessEqual, 8)
  | .mark ">" => some (.greater, 8)
  | .mark ">=" => some (.greaterEqual, 8)
  | .word "instanceof" _ => some (.instanceOf, 8)
  | .word "in" _ => if allowIn then some (.isIn, 8) else none
  | .mark "<<" => some (.shiftLeft, 9)
  | .mark ">>" => some (.shiftRight, 9)
  | .mark ">>>" => some (.shiftRightZero, 9)
  | .mark "+" => some (.add, 10)
  | .mark "-" => some (.subtract, 10)
  | .mark "*" => some (.multiply, 11)
  | .mark "/" => some (.divide, 11)
  | .mark "%" => some (.remainder, 11)
  | .mark "**" => some (.power, 12)
  | _ => none

/-- Whether an expression is a conjunction or a disjunction. -/
def joinsConditions : Expr → Bool
  | .binary _ op _ _ => op == .or || op == .and
  | _ => false

/-- Whether the operator `??` may stand between two operands.  Conjunctions and disjunctions need
parentheses beside it; a parenthesis at their beginning is taken for one around them. -/
def coalescesWell (left right : Expr) (leftInParens rightInParens : Bool) : Bool :=
  if right.isLogical then rightInParens || !joinsConditions right
  else leftInParens || !joinsConditions left

/-- Whether two operands may stand beside an operator without parentheses. -/
def mixesWell (op : BinaryOp) (left right : Expr) (leftInParens rightInParens : Bool) : Bool :=
  match op with
  | .coalesce => coalescesWell left right leftInParens rightInParens
  | .power =>
    match left with
    | .unary _ _ _ | .await _ _ => false
    | _ => true
  | _ => true

/-- Whether an expression asks for a private member. -/
def isPrivateIn : Expr → Bool
  | .privateIn _ _ _ => true
  | _ => false

/-- The first operand of a chain of binary operators above a level.  A private name may stand in
front of `in`, but not as an operand of an operator that binds as tightly. -/
def binaryOperand (level : Nat) (chainAbove : Nat → Parser Expr) : Parser Expr := do
  let start ← startOffset
  let t ← peek
  match t.lexeme with
  | .privateName n =>
    ensure (← read).allowIn
    advance
    expectWord "in"
    let right ← chainAbove 8
    ensure (level < 8 && !isPrivateIn right)
    return .privateIn (← spanFrom start) n right
  | _ => notedPure (unaryExpr r)

mutual

/-- A chain of binary operators that bind more tightly than a level. -/
def binaryChain : Nat → Nat → Parser Expr
  | 0, _ => failure
  | fuel + 1, level => do
    let start ← startOffset
    let inParens ← atMark "("
    let operand ← binaryOperand r level (binaryChain fuel)
    binaryRest fuel start inParens level operand

/-- Extends an operand by the binary operators that bind more tightly than a level.  The flag
tells whether the chain begins with a parenthesis. -/
def binaryRest : Nat → Nat → Bool → Nat → Expr → Parser Expr
  | 0, _, _, _, _ => failure
  | fuel + 1, start, inParens, level, left => do
    let t ← peek
    let c ← read
    if (← dialect).types && t.isWordOf ["as", "satisfies"] && !t.afterNewline && level < 8 then
      advance
      let target ← r.type
      let whole ← spanFrom start
      binaryRest fuel start inParens level
        (if t.isWord "as" then .asType whole left target else .satisfies whole left target)
    else
      match binaryOp? c.allowIn t with
      | none => return left
      | some (op, tightness) =>
        if tightness ≤ level then return left
        else
          advance
          let rightInParens ← atMark "("
          let right ← binaryChain fuel (if op == .power then tightness - 1 else tightness)
          ensure (mixesWell op left right inParens rightInParens)
          binaryRest fuel start inParens level (.binary (← spanFrom start) op left right)

end

/-- Binary operators and the conditional operator. -/
def choiceExpr : Parser Expr := do
  let start ← startOffset
  let test ← binaryChain r ((← bound) + 1) 0
  if ← eatMark "?" then
    let yes ← within (fun c => { c with allowIn := true, arrowBeforeColon := true }) r.assignment
    expectMark ":"
    let no ← r.assignment
    return .choice (← spanFrom start) test yes no
  else return test

/-- The assignment operator of a token. -/
def assignOp? (t : Token) : Option AssignOp :=
  match t.lexeme with
  | .mark "=" => some .plain
  | .mark "+=" => some (.combined .add)
  | .mark "-=" => some (.combined .subtract)
  | .mark "*=" => some (.combined .multiply)
  | .mark "/=" => some (.combined .divide)
  | .mark "%=" => some (.combined .remainder)
  | .mark "**=" => some (.combined .power)
  | .mark "<<=" => some (.combined .shiftLeft)
  | .mark ">>=" => some (.combined .shiftRight)
  | .mark ">>>=" => some (.combined .shiftRightZero)
  | .mark "&=" => some (.combined .bitAnd)
  | .mark "|=" => some (.combined .bitOr)
  | .mark "^=" => some (.combined .bitXor)
  | .mark "&&=" => some (.combined .and)
  | .mark "||=" => some (.combined .or)
  | .mark "??=" => some (.combined .coalesce)
  | _ => none

/-- A `yield` expression. -/
def yieldExpr : Parser Expr := do
  let start ← startOffset
  expectWord "yield"
  let t ← peek
  if t.afterNewline || t.isMarkOf [")", "]", "\x7d", ",", ";", ":"] || t.lexeme == .endOfText ||
      t.isWord "in" then
    return .yield (← spanFrom start) false none
  else
    let delegate ← eatMark "*"
    let operand ← within (fun c => { c with arrowBeforeColon := false }) r.assignment
    return .yield (← spanFrom start) delegate (some operand)

/-- An assignment, or an expression that is none and may be noted as pure. -/
def assignmentFrom (start : Nat) (isPure : Bool) : Parser Expr := do
  let left ← choiceExpr r
  match assignOp? (← peek) with
  | none => return if isPure then left.notePureCall else left
  | some op =>
    let target ← toTarget left
    advance
    let value ← r.assignment
    return .assign (← spanFrom start) op target value

/-- An expression without commas at its top. -/
def assignmentExpr : Parser Expr := do
  let start ← startOffset
  let noted := (← get).newest
  if (← atWord "yield") && ((← read).isYield || (← probeNext showsOperator)) then
    ensure (← read).isYield
    yieldExpr r
  else
    let e ← match ← arrow? r with
      | some e => pure e
      | none => assignmentFrom r start noted.notesPureCall
    return if noted.notesPureFunction then e.notePureFunction else e

end

end Parser

end ComponentLowering.Syntax
