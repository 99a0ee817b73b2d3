/-
# The grammar of classes

Classes and their members: methods, accessors, fields, static blocks and index signatures.  Which
modifiers may stand in front of a member depends on what the member is.
-/
import ComponentLowering.Syntax.Grammar.Functions
import ComponentLowering.Syntax.Wrapped

namespace ComponentLowering.Syntax

open ComponentLowering.Text ComponentLowering.Number

namespace Parser

section

variable (r : Rules)

/-- The statements of a static block, in which `await` is an operator. -/
def staticBlock (start : Nat) : Parser Member := do
  expectWord "static"
  expectMark "\x7b"
  let body ← within (fun c => { c with
    isAwait := true, isYield := false, isFunction := false, isSingle := false }) (statements r)
  expectMark "\x7d"
  return .staticBlock (← spanFrom start) body

/-- A method, a getter or a setter, from its parameters on.  An abstract one has no body, and one
without a body has no decorators. -/
def methodFrom (start : Nat) (decs : List Decorator) (words : List String) (kind : MethodKind)
    (isGenerator : Bool) (key : Key) (optional : Bool) : Parser Member := do
  let fnStart ← startOffset
  let fn ← functionRest r fnStart none false (words.contains "async") isGenerator .method
  let isAbstract := words.contains "abstract"
  ensure (fn.fitsAccessor kind)
  ensure (lacksBody fn || !isAbstract)
  ensure (!lacksBody fn || decs.isEmpty)
  return .method ⟨← spanFrom start, decs, kind, key, words.contains "static", isAbstract,
    words.findSome? accessOf?, optional, fn⟩

/-- A constructor, from its parameters on.  It has no type parameters and is not asynchronous. -/
def constructorFrom (start : Nat) (decs : List Decorator) (words : List String) (key : Key) :
    Parser Member := do
  let fnStart ← startOffset
  let fn ← functionRest r fnStart none false (words.contains "async") false .constructor
  ensure (fn.receiver.isEmpty && fn.typeParams.isEmpty && !fn.isAsync)
  return .method ⟨← spanFrom start, decs, .constructor, key, false, words.contains "abstract",
    words.findSome? accessOf?, false, fn⟩

/-- The key of a constructor, if one stands here: the word `constructor`, or the same as a string
in front of parameters. -/
def constructorKey? : Parser (Option Key) := do
  let t ← peek
  match t.lexeme with
  | .word "constructor" _ =>
    advance
    return some (.name t.span "constructor")
  | .string v =>
    if v.text == "constructor" && (← nextIs fun u => u.isMark "(") then
      advance
      return some (.string t.span v)
    else return none
  | _ => return none

/-- The value of a field, in which neither `await` nor `yield` is an operator. -/
def fieldValue : Parser Expr :=
  within (fun c => { c with allowIn := true, isAwait := false, isYield := false }) (expression r)

/-- A field, from behind its key on.  An abstract one has no value. -/
def fieldFrom (start : Nat) (decs : List Decorator) (words : List String) (key : Key)
    (optional : Bool) : Parser Member := do
  let isAccessor := words.contains "accessor"
  if isAccessor then
    allowOnly (["static", "abstract", "override", "accessor"] ++ accessWords) words
    ensure !optional
  let _ ← if optional then pure false else eatMark "!"
  let type ← typeAnnotation r
  let value ← if ← eatMark "=" then some <$> (if isAccessor then r.assignment else fieldValue r)
    else pure none
  semicolon
  let isAbstract := words.contains "abstract"
  ensure !(isAbstract && value.isSome)
  let field : Field := ⟨← spanFrom start, decs, key, words.contains "static", isAbstract,
    words.contains "readonly", words.contains "declare", words.contains "override",
    words.findSome? accessOf?, optional, type, value⟩
  return if isAccessor then .accessor field else .field field

/-- The key of a class member, which may be a private name.  In a typed module a private name has
no visibility. -/
def memberKey (words : List String) : Parser Key := do
  let t ← peek
  match t.lexeme with
  | .privateName n =>
    ensure (n != "constructor")
    ensure !((← dialect).types && words.any accessWords.contains)
    advance
    return .privateName t.span n
  | _ => propertyKey r

/-- Fails at a static member that is named like the prototype of the class, unless nothing is
implemented here. -/
def ensureNoPrototype (words : List String) (key : Key) : Parser PUnit := do
  ensure ((← read).isAmbient || !(words.contains "static" && key.isNamed "prototype"))

/-- A getter or setter, from its key on. -/
def accessorFrom (start : Nat) (decs : List Decorator) (words : List String) (kind : MethodKind) :
    Parser Member := do
  let key ← memberKey r words
  ensureNoPrototype words key
  ensure (words.contains "static" || !key.isConstructorName)
  methodFrom r start decs words kind false key false

/-- A method or a field, from its key on. -/
def keyedMember (start : Nat) (decs : List Decorator) (words : List String) : Parser Member := do
  let isGenerator ← eatMark "*"
  let key ← memberKey r words
  let optional ← eatMark "?"
  if isGenerator || (← peek).isMarkOf ["(", "<"] then
    ensureNoPrototype words key
    ensure !(words.contains "readonly" || words.contains "declare")
    ensure !(isGenerator && !words.contains "static" && key.isConstructorName)
    methodFrom r start decs words .method isGenerator key optional
  else
    if !words.contains "accessor" then
      ensureNoPrototype words key
      ensure !key.isConstructorName
    fieldFrom r start decs words key optional

/-- An index signature of a class.  A static one says so before anything else. -/
def classIndexSignature (start : Nat) (words : List String) : Parser Member := do
  ensure ([[], ["static"], ["readonly"], ["static", "readonly"]].contains words)
  let (n, key, result) ← indexSignature r
  memberEnd
  return .indexSignature (← spanFrom start) (words.contains "readonly") n key result

/-- A class member behind its decorators and modifiers. -/
def classMemberFrom (start : Nat) (decs : List Decorator) (words : List String) :
    Parser Member := do
  let t ← peek
  if t.isWordOf ["get", "set"] && (← nextIs startsKey) then
    advance
    accessorFrom r start decs words (if t.isWord "get" then .getter else .setter)
  else if (← dialect).types && (← atIndexSignature) then
    ensure decs.isEmpty
    classIndexSignature r start words
  else
    match ← (if words.contains "static" then pure none else constructorKey?) with
    | some key => constructorFrom r start decs words key
    | none => keyedMember r start decs words

/-- A class member. -/
def classMember : Parser Member := do
  let start ← startOffset
  let decs ← decorators r
  let words ← modifiers
  if (← atWord "static") && (← nextIs fun u => u.isMark "\x7b") then
    ensure (decs.isEmpty && words.isEmpty)
    staticBlock r start
  else
    within (fun c => { c with isAmbient := c.isAmbient || words.contains "declare" })
      (classMemberFrom r start decs words)

/-- The members of a class, in braces. -/
def classBody : Parser (List Member) := do
  expectMark "\x7b"
  let members ← within (fun c => { c with
      arrowBeforeColon := false, noChoiceType := false }) <| collect do
    let _ ← collect do
      if ← eatMark ";" then return some () else return none
    if ← atMark "\x7d" then return none
    return some (← classMember r)
  expectMark "\x7d"
  return members

/-- Interfaces, separated by commas, each with a check of its first word. -/
def interfaceList (check : Parser PUnit) : Parser (List TypeNode) :=
  separated "," do
    check
    let start ← startOffset
    let path ← dottedName
    let args ← optionalTypeArgs r
    return .reference (← spanFrom start) path args

/-- Parents of a class with their type arguments, separated by commas.  Only the first counts. -/
def parentClasses : Parser (List (Expr × List TypeNode)) :=
  separated "," do
    match (← r.leftHand).splitTypeArgs with
    | (e, []) =>
      let args ← if (← dialect).types && (← atOpeningAngle) then typeArgs r else pure []
      return (e, args)
    | instantiated => return instantiated

/-- The name of a class, if one stands here.  The word `implements` is none. -/
def className? : Parser (Option Ident) := do
  let t ← peek
  if isNameWord t && !t.isWord "implements" then some <$> name else return none

/-- A class, from the word `class` on. -/
def classFrom (start : Nat) (decs : List Decorator) (declared isAbstract : Bool) :
    Parser ClassDef := do
  expectWord "class"
  let n ← className?
  let typeParams ← typeParameters r
  let parents ← if ← eatWord "extends" then parentClasses r else pure []
  let interfaces ← if ← eatWord "implements" then interfaceList r (pure ⟨⟩) else pure []
  let members ← classBody r
  let (superClass, superTypeArgs) := match parents with
    | [] => (none, [])
    | (parent, args) :: _ => (some parent, args)
  let whole ← spanFrom start
  if named : (n.all fun n => isBindingName n.name) = true then
    return ⟨whole, decs, declared, isAbstract, n, typeParams, superClass, superTypeArgs, interfaces,
      members, named⟩
  else failure

end

end Parser

end ComponentLowering.Syntax
