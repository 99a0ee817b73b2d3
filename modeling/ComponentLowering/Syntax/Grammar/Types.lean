/-
# The grammar of types

Type annotations, type parameters and type arguments.  Types hold expressions in a few places: as
computed keys, as default values of parameters and as the options of an imported type.
-/
import ComponentLowering.Syntax.Grammar.Binding

namespace ComponentLowering.Syntax

open ComponentLowering.Text ComponentLowering.Number

namespace Parser

/-- Names of the types that are built in. -/
def builtinTypes : List String :=
  ["any", "unknown", "never", "number", "bigint", "boolean", "string", "symbol", "object", "void",
    "undefined", "null", "true", "false"]

/-- Built-in types that are no beginning of a dotted name. -/
def undottedTypes : List String := ["void", "null", "true", "false"]

/-- A dotted name.  Any word may stand in any of its places. -/
def dottedName : Parser (List String) := do
  let first ← anyWord
  let more ← collect do
    if ← eatMark "." then return some (← anyWord).name else return none
  return first.name :: more

/-- Whether a token may begin a type behind a mark that could also end one. -/
def startsType (t : Token) : Bool :=
  match t.lexeme with
  | .word n _ =>
    !reservedWords.contains n ||
      ["void", "null", "this", "typeof", "new", "true", "false", "import", "function"].contains n
  | .string _ | .number _ | .bigint _ | .template _ _ => true
  | .mark m =>
    ["\x7b", "[", "<", "|", "&", "*", "?", "!", "...", "-", "("].contains m
  | _ => false

/-- Whether a type is a list of items. -/
def isListType : TypeNode → Bool
  | .array _ _ | .tuple _ _ => true
  | _ => false

section

variable (r : Rules)

/-- Type arguments from an opening angle bracket up to the closing one, at least one. -/
def typeArgList : Parser (List TypeNode) := do
  openingAngle
  let args ← collect do
    if ← atClosingAngle then return none
    let a ← within (fun c => { c with noChoiceType := false }) r.type
    if !(← atClosingAngle) then expectMark ","
    return some a
  ensure !args.isEmpty
  return args

/-- Type arguments in angle brackets. -/
def typeArgs : Parser (List TypeNode) := do
  let args ← typeArgList r
  closingAngle
  return args

/-- Type arguments where they may be left out. -/
def optionalTypeArgs : Parser (List TypeNode) := do
  if (← peek).afterNewline then return []
  if ← atOpeningAngle then typeArgs r else return []

/-- A type parameter with its modifiers, bound and default. -/
def typeParameter : Parser TypeNode := do
  let start ← startOffset
  let words ← collect do
    let t ← peek
    if t.isWordOf ["const", "in", "out"] && (← nextIs fun u => isAnyWord u && !u.afterNewline) then
      return some (← takeWord)
    else return none
  ensure (words.eraseDups == words)
  let n ← name
  let bound ← if ← eatWord "extends" then some <$> r.type else pure none
  let default ← if ← eatMark "=" then some <$> r.type else pure none
  let ordered := ["const", "in", "out"].filter words.contains
  return .parameter (← spanFrom start) ordered n.name bound default

/-- Type parameters in angle brackets, none if there are no brackets. -/
def typeParameters : Parser (List TypeNode) := do
  if !(← dialect).types || !(← atMark "<") then return []
  advance
  let params ← commaItems ">" (within (fun c => { c with noChoiceType := false })
    (typeParameter r))
  ensure (!params.isEmpty)
  closingAngle
  return params

/-- A return type, which may be a predicate on a parameter. -/
def returnType : Parser TypeNode := do
  let start ← startOffset
  let subject ← attempt do
    let subject ← anyWord
    let t ← peek
    ensure (t.isWord "is" && !t.afterNewline)
    advance
    return subject.name
  match subject with
  | some subject =>
    let type ← r.type
    return .predicate (← spanFrom start) false subject (some type)
  | none => r.type

/-- The return type behind a colon, if there is a colon. -/
def returnTypeAnnotation : Parser (Option TypeNode) := do
  if ← eatTypeColon then some <$> returnType r else return none

/-- A predicate that holds when a function returns at all. -/
def assertion : Parser TypeNode := do
  let start ← startOffset
  expectWord "asserts"
  let subject ← anyWord
  if ← eatWord "is" then
    let type ← r.type
    return .predicate (← spanFrom start) true subject.name (some type)
  else return .predicate (← spanFrom start) true subject.name none

/-- A function or constructor type.  Any token is taken for the arrow. -/
def functionType : Parser TypeNode := do
  let start ← startOffset
  let isAbstract ← eatWord "abstract"
  let isNew ← eatWord "new"
  let typeParams ← typeParameters r
  let (this, params) ← parameters r false
  ensure (!isNew || this.isEmpty)
  advance
  let result ← returnType r
  return .function (← spanFrom start) isNew isAbstract typeParams (this ++ params) result

/-- The end of a member of an object type, which may be left out. -/
def memberEnd : Parser PUnit := do
  if (← peek).isMarkOf [",", ";"] then advance

/-- An index signature from its bracket on: the name and the type of the key, and the type of the
values. -/
def indexSignature : Parser (Ident × TypeNode × TypeNode) := do
  expectMark "["
  let n ← anyWord
  expectMark ":"
  let key ← r.type
  expectMark "]"
  expectMark ":"
  let result ← r.type
  return (n, key, result)

/-- Whether an index signature stands here.  A modifier in front of the name of its key, which is
never valid there, shows one too. -/
def atIndexSignature : Parser Bool :=
  ahead do
    expectMark "["
    let t ← peek
    ensure (isNameWord t || t.isWordOf ("const" :: modifierWords))
    skip
    return (← atMark ":") ||
      (t.isWordOf ("const" :: modifierWords) && isNameWord (← peek))

/-- Type parameters, parameters and return type of a signature.  Only one that is not behind `new`
types its receiver. -/
def callPart (isNew : Bool) : Parser (List TypeNode × List Param × Option TypeNode) := do
  let typeParams ← typeParameters r
  let (this, params) ← parameters r false
  ensure (!isNew || this.isEmpty)
  let result ← returnTypeAnnotation r
  return (typeParams, this ++ params, result)

/-- A signature of a getter or setter, behind its word. -/
def accessorSignature (start : Nat) (kind : MethodKind) : Parser TypeNode := do
  let key ← propertyKey r
  let (this, params) ← parameters r false
  let result ← returnTypeAnnotation r
  ensure !(kind == .setter && result.isSome)
  return .methodSignature (← spanFrom start) kind key false [] (this ++ params) result

/-- A property or method signature, or an index signature. -/
def keyedSignature (start : Nat) (isReadonly : Bool) : Parser TypeNode := do
  let t ← peek
  if t.isWordOf ["get", "set"] && (← nextIs startsKey) then
    advance
    accessorSignature r start (if t.isWord "get" then .getter else .setter)
  else if ← atIndexSignature then
    let (n, key, result) ← indexSignature r
    return .indexSignature (← spanFrom start) isReadonly n key result
  else
    let key ← propertyKey r
    let optional ← eatMark "?"
    if (← peek).isMarkOf ["(", "<"] then
      ensure !isReadonly
      let (typeParams, params, result) ← callPart r false
      return .methodSignature (← spanFrom start) .method key optional typeParams params result
    else
      let type ← typeAnnotation r
      return .propertySignature (← spanFrom start) isReadonly key optional type

/-- A member of an object type. -/
def typeMember : Parser TypeNode := do
  let start ← startOffset
  let t ← peek
  if t.isMarkOf ["(", "<"] then
    let (typeParams, params, result) ← callPart r false
    return .callSignature (← spanFrom start) false typeParams params result
  else if t.isWord "new" && (← nextIs fun u => u.isMarkOf ["(", "<"]) then
    advance
    let (typeParams, params, result) ← callPart r true
    return .callSignature (← spanFrom start) true typeParams params result
  else
    let words ← modifiers
    allowOnly ["readonly"] words
    keyedSignature r start (words.contains "readonly")

/-- The members of an object type or interface, in braces. -/
def typeMembers : Parser (List TypeNode) := do
  expectMark "\x7b"
  let members ← collect do
    if ← atMark "\x7d" then return none
    let m ← within (fun c => { c with noChoiceType := false }) (typeMember r)
    memberEnd
    return some m
  expectMark "\x7d"
  return members

/-- A modifier of a mapped type, with an optional sign. -/
def mappedModifier (present : Parser Bool) : Parser MappedModifier := do
  if ← eatMark "+" then
    ensure (← present)
    return .added
  else if ← eatMark "-" then
    ensure (← present)
    return .removed
  else if ← present then return .present
  else return .absent

/-- Whether a mapped type stands here, rather than an object type. -/
def atMappedType : Parser Bool :=
  ahead do
    expectMark "\x7b"
    if (← peek).isMarkOf ["+", "-"] then
      advance
      return ← atWord "readonly"
    let _ ← eatWord "readonly"
    expectMark "["
    let _ ← anyWord
    atWord "in"

/-- A mapped type. -/
def mappedType : Parser TypeNode := do
  let start ← startOffset
  expectMark "\x7b"
  let readonlyMod ← mappedModifier (eatWord "readonly")
  expectMark "["
  let n ← name
  expectWord "in"
  let source ← r.type
  let rename ← if ← eatWord "as" then some <$> r.type else pure none
  expectMark "]"
  let optionalMod ← mappedModifier (eatMark "?")
  let type ← if ← eatMark ":" then some <$> r.type else pure none
  let _ ← eatMark ";"
  expectMark "\x7d"
  return .mapped (← spanFrom start) readonlyMod n.name source rename optionalMod type

/-- A type that an item of a tuple makes optional by a mark behind it. -/
def optionalItem : TypeNode → TypeNode
  | .marked span .nullable true item => .optional span item
  | type => type

/-- Whether a mark behind a type makes it optional. -/
def isOptionalItem : TypeNode → Bool
  | .marked _ .nullable true _ => true
  | _ => false

/-- An element of a tuple type.  One with a label is marked as optional behind the label. -/
def tupleItem : Parser TypeNode := do
  let start ← startOffset
  let labeled ← ahead do
    let _ ← eatMark "..."
    let _ ← anyWord
    let _ ← eatMark "?"
    atMark ":"
  let isRest ← eatMark "..."
  if labeled then
    let label ← anyWord
    let optional ← if isRest then pure false else eatMark "?"
    expectMark ":"
    let item ← r.type
    ensure !(isOptionalItem item)
    let inner := TypeNode.labeled (← spanFrom label.span.start) label.name optional item
    if isRest then return .rest (← spanFrom start) inner else return inner
  else
    let item ← r.type
    if isRest then return .rest (← spanFrom start) item else return optionalItem item

/-- A type imported from another module, without the word `typeof` in front of it. -/
def importType : Parser TypeNode := do
  let start ← startOffset
  expectWord "import"
  expectMark "("
  let argument ← r.type
  let options ← if ← eatMark "," then do
      ensure (← atMark "\x7b")
      some <$> bracketed r.assignment
    else pure none
  expectMark ")"
  let path ← if ← eatMark "." then dottedName else pure []
  let args ← optionalTypeArgs r
  return .importType (← spanFrom start) argument options path args

/-- The type of a variable or of an imported value. -/
def queryType : Parser TypeNode := do
  let start ← startOffset
  expectWord "typeof"
  if ← atWord "import" then
    let target ← importType r
    return .query (← spanFrom start) target []
  else
    let targetStart ← startOffset
    let path ← dottedName
    let target := TypeNode.reference (← spanFrom targetStart) path []
    let args ← optionalTypeArgs r
    return .query (← spanFrom start) target args

/-- A type that is named by a word. -/
def namedType : Parser TypeNode := do
  let start ← startOffset
  let t ← peek
  match t.lexeme with
  | .word n _ =>
    if builtinTypes.contains n &&
        (undottedTypes.contains n || !(← nextIs fun u => u.isMark ".")) then
      advance
      return .keyword t.span n
    else
      let path ← dottedName
      let args ← optionalTypeArgs r
      return .reference (← spanFrom start) path args
  | _ => failure

/-- The type `this`, or a predicate on the receiver. -/
def thisType : Parser TypeNode := do
  let t ← take
  if (← atWord "is") && !(← peek).afterNewline then
    advance
    let type ← r.type
    return .predicate (← spanFrom t.span.start) false "this" (some type)
  else return .keyword t.span "this"

/-- A number, possibly behind a minus sign. -/
def numberType : Parser TypeNode := do
  let start ← startOffset
  let negative ← eatMark "-"
  let raw ← tokenText
  match (← peek).lexeme with
  | .number _ =>
    advance
    return .number (← spanFrom start) negative (String.ofList raw)
  | .bigint ds =>
    advance
    return .bigint (← spanFrom start) negative ds
  | _ => failure

/-- A type behind a question mark.  Without a type the mark stands for an unknown one. -/
def nullableType : Parser TypeNode := do
  let start ← startOffset
  expectMark "?"
  if (← peek).isMarkOf [",", "\x7d", ")", ">", "=", "|"] then
    return .keyword (← spanFrom start) "unknown"
  else
    let item ← r.type
    return .marked (← spanFrom start) .nullable false item

/-- A type that is neither an array nor an indexed type, and whose marks stand in front of it. -/
def simpleType : Nat → Parser TypeNode
  | 0 => failure
  | fuel + 1 => do
    let start ← startOffset
    let t ← peek
    match t.lexeme with
    | .string v =>
      advance
      return .string t.span v
    | .number _ | .bigint _ | .mark "-" => numberType
    | .template _ _ =>
      let (chunks, types) ← templateParts r.type
      return .template (← spanFrom start) chunks types
    | .word "this" _ => thisType r
    | .word "typeof" _ => queryType r
    | .word "import" _ => importType r
    | .word "asserts" _ =>
      if ← nextIs fun u => isAnyWord u && !u.afterNewline && (isNameWord u || u.isWord "this") then
        assertion r
      else namedType r
    | .word _ _ => namedType r
    | .mark "?" => nullableType r
    | .mark "!" =>
      advance
      let item ← simpleType fuel
      return .marked (← spanFrom start) .certain false item
    | .mark "(" =>
      advance
      let inner ← within (fun c => { c with noChoiceType := false }) r.type
      expectMark ")"
      return .paren (← spanFrom start) inner
    | .mark "[" =>
      advance
      let items ← commaItems "]" (within (fun c => { c with noChoiceType := false })
        (tupleItem r))
      expectMark "]"
      return .tuple (← spanFrom start) items
    | _ =>
      if ← atMappedType then mappedType r
      else
        let members ← typeMembers r
        return .object (← spanFrom start) members

/-- Array types, indexed types and marks over a type that was read. -/
def typeSuffixes (start : Nat) : Nat → TypeNode → Parser TypeNode
  | 0, _ => failure
  | fuel + 1, type => do
    let t ← peek
    if t.afterNewline then return type
    else if t.isMark "!" then
      advance
      typeSuffixes start fuel (.marked (← spanFrom start) .certain true type)
    else if t.isMark "?" then
      if ← nextIs startsType then return type
      else
        advance
        typeSuffixes start fuel (.marked (← spanFrom start) .nullable true type)
    else if t.isMark "[" then
      advance
      if ← eatMark "]" then
        typeSuffixes start fuel (.array (← spanFrom start) type)
      else
        let key ← r.type
        expectMark "]"
        typeSuffixes start fuel (.indexed (← spanFrom start) type key)
    else return type

/-- A type parameter that is found by matching, with a bound unless the bound would begin a
conditional type. -/
def inferredType : Parser TypeNode := do
  let start ← startOffset
  expectWord "infer"
  let paramStart ← startOffset
  let n ← name
  let bound ← attempt do
    expectWord "extends"
    let b ← within (fun c => { c with noChoiceType := true }) r.type
    let c ← read
    ensure (c.noChoiceType || !(← atMark "?"))
    return b
  let param := TypeNode.parameter (← spanFrom paramStart) [] n.name bound none
  return .infer (← spanFrom start) param

/-- Type operators in front of a type.  Only lists may be read-only. -/
def operatorType : Nat → Parser TypeNode
  | 0 => failure
  | fuel + 1 => do
    let start ← startOffset
    let t ← peek
    if t.isWordOf ["keyof", "unique", "readonly"] then
      let word ← takeWord
      let operand ← operatorType fuel
      ensure (word != "readonly" || isListType operand)
      return .operator (← spanFrom start) word operand
    else if t.isWord "infer" then inferredType r
    else
      within (fun c => { c with noChoiceType := false }) do
        let type ← simpleType r fuel
        typeSuffixes r start fuel type

/-- Types joined by a mark, which may also stand in front of the first one. -/
def joinedTypes (mark : String) (make : Span → List TypeNode → TypeNode)
    (item : Parser TypeNode) : Parser TypeNode := do
  let start ← startOffset
  let leading ← eatMark mark
  let items ← separated mark item
  match items with
  | [only] => if leading then return make (← spanFrom start) [only] else return only
  | _ => return make (← spanFrom start) items

/-- A union of intersections. -/
def unionType : Parser TypeNode := do
  let fuel := (← bound) + 1
  joinedTypes "|" .union (joinedTypes "&" .intersection (operatorType r fuel))

/-- Whether the parenthesis here opens the parameters of a function type. -/
def atTypeParameterList : Parser Bool :=
  ahead do
    expectMark "("
    if (← peek).isMarkOf [")", "..."] then return true
    let _ ← modifiersFrom ((← bound) + 1) []
    let t ← peek
    if t.isMarkOf ["[", "\x7b"] then
      let _ ← r.pattern
    else
      ensure (isNameWord t || t.isWord "this")
      advance
    if (← peek).isMarkOf [":", ",", "?", "="] then return true
    expectMark ")"
    atMark "=>"

/-- Whether a function or constructor type stands here. -/
def atFunctionType : Parser Bool := do
  let t ← peek
  if t.isMark "<" || t.isWord "new" then return true
  else if t.isWord "abstract" then nextIs fun u => u.isWord "new"
  else if t.isMark "(" then atTypeParameterList r
  else return false

/-- A type. -/
def typeRule : Parser TypeNode := do
  if ← atFunctionType r then functionType r
  else
    let start ← startOffset
    let type ← unionType r
    let c ← read
    let t ← peek
    if !c.noChoiceType && t.isWord "extends" && !t.afterNewline then
      advance
      let bound ← within (fun c => { c with noChoiceType := true }) r.type
      expectMark "?"
      let yes ← within (fun c => { c with noChoiceType := false }) r.type
      expectMark ":"
      let no ← within (fun c => { c with noChoiceType := false }) r.type
      return .choice (← spanFrom start) type bound yes no
    else return type

end

end Parser

end ComponentLowering.Syntax
