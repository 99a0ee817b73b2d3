/-
# The grammar of bindings

Keys, patterns, decorators and parameters: what names stand in front of values.  Every rule of the
grammar is written over `Rules`, the parsers for the syntax nested in it, and is itself not
recursive except for loops over a bound.
-/
import ComponentLowering.Syntax.Grammar.Parser
import ComponentLowering.Syntax.Place

namespace ComponentLowering.Syntax

open ComponentLowering.Text ComponentLowering.Number

/-- Parsers for nested syntax.  The flag of `markup` tells whether to move behind the element. -/
structure Rules where
  assignment : Parser Expr
  unary : Parser Expr
  leftHand : Parser Expr
  callee : Parser Expr
  pattern : Parser Pattern
  type : Parser TypeNode
  statement : Parser Stmt
  markup : Bool → Parser Expr

/-- Whether a key that is not computed has a given name. -/
def Key.isNamed (wanted : String) : Key → Bool
  | .name _ n => n == wanted
  | .string _ v => v.text == wanted
  | _ => false

/-- Whether a key names the constructor of a class. -/
def Key.isConstructorName (key : Key) : Bool := key.isNamed "constructor"

namespace Parser

/-- A bracketed part of the text, in which the operator `in` is allowed again and what the
surroundings ask of types and arrow functions does not hold. -/
def bracketed {α : Type} (p : Parser α) : Parser α :=
  within (fun c => { c with
    allowIn := true, arrowBeforeColon := false, noChoiceType := false }) p

/-- A part of the text that is no part of a decorator around it. -/
def undecorated {α : Type} (p : Parser α) : Parser α :=
  within (fun c => { c with isDecorator := false }) p

/-! ### Words in front of members and parameters -/

/-- Whether a token may begin the key of a member. -/
def startsKey (t : Token) : Bool :=
  match t.lexeme with
  | .word _ _ | .string _ | .number _ | .bigint _ | .privateName _ => true
  | .mark m => m == "["
  | _ => false

/-- Whether a token may follow a modifier. -/
def followsModifier (t : Token) : Bool := startsKey t || t.isMarkOf ["*", "\x7b", "..."]

/-- Words that modify what they stand in front of. -/
def modifierWords : List String :=
  ["abstract", "accessor", "async", "declare", "default", "export", "in", "out", "public",
    "private", "protected", "static", "readonly", "override"]

/-- Modifiers up to the first word that is none.  All of them but `static` stand on the line of
what follows them, and a second `static` is a name. -/
def modifiersFrom : Nat → List String → Parser (List String)
  | 0, _ => failure
  | fuel + 1, acc => do
    let t ← peek
    let again := t.isWord "static" && acc.contains "static"
    if t.isWordOf modifierWords && !again && (← nextIs fun u =>
        followsModifier u && (t.isWord "static" || !u.afterNewline)
          && !(t.isWord "static" && u.isMark "\x7b")) then
      let word ← takeWord
      modifiersFrom fuel (word :: acc)
    else return acc.reverse

/-- The visibility that a word stands for. -/
def accessOf? (word : String) : Option Access :=
  if word == "public" then some .openAccess
  else if word == "protected" then some .guarded
  else if word == "private" then some .closed
  else none

/-- Modifiers, none of them twice and at most one of them a visibility. -/
def modifiers : Parser (List String) := do
  let words ← modifiersFrom ((← bound) + 1) []
  ensure (words.eraseDups == words && (words.filterMap accessOf?).length ≤ 1)
  return words

/-- Fails unless all modifiers are among the allowed ones. -/
def allowOnly (allowed words : List String) : Parser PUnit :=
  ensure (words.all allowed.contains)

/-- The words for visibilities. -/
def accessWords : List String := ["public", "protected", "private"]

section

variable (r : Rules)

/-! ### Expressions in lists -/

/-- Expressions separated by commas. -/
def expression : Parser Expr := undecorated do
  let start ← startOffset
  let first ← r.assignment
  if ← atMark "," then
    let more ← collect do
      if ← eatMark "," then return some (← r.assignment) else return none
    return .sequence (← spanFrom start) (first :: more)
  else return first

/-! ### Keys, patterns and parameters -/

/-- The key of a property or member. -/
def propertyKey : Parser Key := do
  let t ← peek
  match t.lexeme with
  | .word n _ =>
    skip
    return .name t.span n
  | .string v =>
    advance
    return .string t.span v
  | .number v =>
    let raw ← tokenText
    advance
    return .number t.span v (String.ofList raw)
  | .bigint ds =>
    advance
    return .bigint t.span ds
  | _ =>
    expectMark "["
    let inner ← bracketed r.assignment
    expectMark "]"
    return .computed inner

/-- Takes the colon in front of a type annotation if it is there. -/
def eatTypeColon : Parser Bool := do
  if (← dialect).types then eatMark ":" else return false

/-- The type behind a colon, if there is a colon. -/
def typeAnnotation : Parser (Option TypeNode) := do
  if ← eatTypeColon then some <$> r.type else return none

/-- A pattern that started at an offset, with the default value behind it, if there is one. -/
def withInitializer (start : Nat) (target : Pattern) : Parser Pattern := do
  if ← eatMark "=" then
    let value ← bracketed r.assignment
    return .withDefault (← spanFrom start) target value
  else return target

/-- A pattern inside another one.  It may be marked as optional and have a type and a default
value. -/
def patternElement : Parser Pattern := do
  let start ← startOffset
  let target ← r.pattern
  let optional ← if (← dialect).types then eatMark "?" else pure false
  let type ← typeAnnotation r
  let annotated := if optional || type.isSome then .annotated target optional type else target
  withInitializer r start annotated

/-- Fails unless a list ends here.  Where nothing is implemented a comma may stand in front of the
closing mark. -/
def ensureLast (close : String) : Parser PUnit := do
  let ambient := (← read).isAmbient
  ensure ((← atMark close) ||
    (ambient && (← atMark ",") && (← nextIs fun u => u.isMark close)))

/-- The part of a pattern that takes what is left over, in front of a closing mark. -/
def patternRest (close : String) : Parser Pattern := do
  let start ← startOffset
  expectMark "..."
  let target ← r.pattern
  let type ← typeAnnotation r
  ensureLast close
  let annotated := if type.isSome then .annotated target false type else target
  return .rest (← spanFrom start) annotated

/-- Whether a pattern consists of a variable. -/
def isVariable : Pattern → Bool
  | .ident _ _ => true
  | .annotated target _ _ => isVariable target
  | _ => false

/-- A property of an object pattern.  What is left over goes to a variable. -/
def patternProperty : Parser Pattern := do
  let start ← startOffset
  let t ← peek
  if t.isMark "..." then
    let rest ← patternRest r "\x7d"
    match rest with
    | .rest _ target => ensure (isVariable target)
    | _ => pure ⟨⟩
    return rest
  let shorthand ← if isNameWord t then nextIs fun u => u.isMarkOf [",", "\x7d", "="]
    else pure false
  if shorthand then
    let n ← anyWord
    let value ← withInitializer r start (.ident n.span n.name)
    return .property (← spanFrom start) (.name n.span n.name) value true
  else
    let key ← propertyKey r
    expectMark ":"
    let value ← patternElement r
    return .property (← spanFrom start) key value false

/-- A binding pattern. -/
def bindingPattern : Parser Pattern := do
  let start ← startOffset
  if ← eatMark "\x7b" then
    let properties ← commaItems "\x7d" (patternProperty r)
    expectMark "\x7d"
    return .object (← spanFrom start) properties
  else if ← eatMark "[" then
    let elements ← commaItems "]" do
      let itemStart ← startOffset
      if ← atMark "," then return Pattern.hole ⟨itemStart, itemStart⟩
      else if ← atMark "..." then patternRest r "]"
      else patternElement r
    expectMark "]"
    return .array (← spanFrom start) elements
  else
    let n ← name
    return .ident n.span n.name

/-- Whether an optional link stands on the way along which an expression reaches its result. -/
def hasOptionalLink : Expr → Bool
  | .chain _ _ => true
  | _ => false

/-- Decorators in front of a class, a member or a parameter. -/
def decorators : Parser (List Decorator) :=
  collect do
    if ← atMark "@" then
      let start ← startOffset
      advance
      let expr ← within (fun c => { c with isDecorator := true }) r.leftHand
      ensure !(hasOptionalLink expr)
      return some ⟨← spanFrom start, expr⟩
    else return none

/-- A parameter behind its decorators and modifiers. -/
def parameterFrom (start : Nat) (decs : List Decorator) (words : List String) : Parser Param := do
  let targetStart ← startOffset
  let target ← r.pattern
  let optional ← if (← dialect).types then eatMark "?" else pure false
  let type ← typeAnnotation r
  let target ← withInitializer r targetStart target
  return ⟨← spanFrom start, decs, words.findSome? accessOf?, words.contains "override",
    words.contains "readonly", target, optional, type⟩

/-- The parameter that takes all further arguments. -/
def restParameter : Parser Param := do
  let start ← startOffset
  expectMark "..."
  let target ← r.pattern
  let target := Pattern.rest (← spanFrom start) target
  let type ← typeAnnotation r
  ensureLast ")"
  return ⟨← spanFrom start, [], none, false, false, target, false, type⟩

/-- A parameter.  Those of a constructor may declare fields. -/
def parameter (ofConstructor : Bool) : Parser Param := do
  if ← atMark "..." then restParameter r
  else
    let start ← startOffset
    let decs ← decorators r
    let words ← if (← dialect).types then modifiers else pure []
    allowOnly (if ofConstructor then "readonly" :: "override" :: accessWords else []) words
    parameterFrom r start decs words

/-- The parameter that types the receiver of a function, if one stands here. -/
def receiver : Parser (List Param) := do
  if !(← dialect).types || !(← atWord "this") then return []
  let t ← take
  let type ← typeAnnotation r
  let whole ← spanFrom t.span.start
  if !(← atMark ")") then expectMark ","
  return [⟨whole, [], none, false, false, .ident t.span "this", false, type⟩]

/-- Parameters in parentheses, the receiver apart, which stands in front of the others. -/
def parameters (ofConstructor : Bool) : Parser (List Param × List Param) := do
  expectMark "("
  let all ← bracketed do
    let this ← receiver r
    return (this, ← commaItems ")" (parameter r ofConstructor))
  expectMark ")"
  return all

end

end Parser

end ComponentLowering.Syntax
