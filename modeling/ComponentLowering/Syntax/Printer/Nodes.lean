/-
# Writing syntax

Expressions, types, classes and statements.  A statement starts on a line of its own, lists of more
than two items and objects of more than one member take a line for each, and an expression stands
in parentheses only where it would be read as something else without them.
-/
import ComponentLowering.Syntax.Place
import ComponentLowering.Syntax.Printer.Imports
import ComponentLowering.Syntax.Printer.Slot

namespace ComponentLowering.Syntax

open ComponentLowering.Text ComponentLowering.Number

namespace Writing

/-- Whether an expression statement starts here. -/
def atStatement : StateM Page Bool := return (← get).statementStart == some (← get).size

/-- Whether the result of an arrow function starts here. -/
def atResult : StateM Page Bool := return (← get).resultStart == some (← get).size

/-- Whether a default export starts here. -/
def atDefault : StateM Page Bool := return (← get).defaultStart == some (← get).size

/-- What stands in front of a statement, with a note between its comments and its indentation. -/
def startNoted (note : Writing) (place : Placement) (offset : Nat) : Writing := do
  match place with
  | .line =>
    commentsAt offset
    note
    indent
  | .attached =>
    stayOnLine
    commentsAt offset
    note
    indent
  | .chained | .inner | .head => pure ⟨⟩

/-- What stands in front of a statement. -/
def start (place : Placement) (offset : Nat) : Writing := startNoted (pure ⟨⟩) place offset

/-- What stands in front of a statement that only typed modules hold: its comments follow the
indentation. -/
def startTyped (place : Placement) (offset : Nat) : Writing := do
  match place with
  | .line =>
    indent
    commentsAt offset
  | .attached =>
    stayOnLine
    indent
    commentsAt offset
  | .chained | .inner | .head => pure ⟨⟩

/-- What stands behind a statement that ends in a semicolon. -/
def finish (place : Placement) : Writing := only (place != .head) semicolon

/-- What stands behind a statement that ends in a brace. -/
def finishBlock (place : Placement) : Writing := only (place != .inner) newline

/-- The word for a visibility. -/
def accessWord : Option Access → Writing
  | none => pure ⟨⟩
  | some a => do
    text a.spelling
    put ' '

/-- The label behind a jump. -/
def jumpLabel : Option Ident → Writing
  | none => pure ⟨⟩
  | some label => do
    put ' '
    text label.name

/-- A dotted name. -/
def path (parts : List String) : Writing := text (".".intercalate parts)

/-- The modifier of a mapped type in front of its word. -/
def mappedSign : MappedModifier → String
  | .absent | .present => ""
  | .added => "+"
  | .removed => "-"

/-- Words in front of a name, each followed by a space. -/
def words : List String → Writing
  | [] => pure ⟨⟩
  | word :: rest => do
    text word
    put ' '
    words rest

/-- The word in front of the key of a method. -/
def methodWord : MethodKind → Writing
  | .getter => text "get "
  | .setter => text "set "
  | _ => pure ⟨⟩

/-- A mark of a type on one of its sides. -/
def typeMark (mark : TypeMark) (isHere : Bool) : Writing :=
  only isHere (put (match mark with
    | .nullable => '?'
    | .certain => '!'))

/-- A note that calls of a function have no effect beyond their value. -/
def pureFunctionNote : String := "/* @__NO_SIDE_EFFECTS__ */"

/-- The note in front of a call that has no effect beyond its value. -/
def pureCallNote : Writing := text "/* @__PURE__ */ "

/-- The note on a line of its own in front of a statement that makes such a function. -/
def pureFunctionLine (isPure : Bool) : Writing :=
  only isPure do
    text pureFunctionNote
    newline

/-- The arguments of a call that covers the given span, written inline or, as soon as one of them
or the closing parenthesis is led by a comment, on lines of their own. -/
def arguments (call : Span) (args : List Expr) (inline lines : Writing) : Writing := do
  let page ← get
  let ledEnd := decide (0 < call.stop) && page.hasComment (call.stop - 1)
  put '('
  if ledEnd || args.any (page.hasComment ·.span.start) then
    deeper do
      lines
      if !ledEnd then newline
      else only (!(← commentLinesAt (call.stop - 1))) newline
    indent
  else inline
  put ')'

/-- Writes the comments in front of the end of a call, each on a line of its own, and tells whether
there were any. -/
def closingComments (call : Span) : StateM Page Bool :=
  if 0 < call.stop then commentLinesAt (call.stop - 1) else return false

/-- Whether comments lead a part of a call of `import`. -/
def importCallLed (page : Page) (call : Span) (source : Expr) (options : Option Expr) : Bool :=
  (decide (0 < call.stop) && page.hasComment (call.stop - 1)) || page.hasComment source.span.start
    || (options.map fun o => page.hasComment o.span.start).getD false

mutual

/-- An expression. -/
def expr (slot : Slot) : Expr → Writing
  | .ident _ name => text name
  | .this _ => text "this"
  | .super _ => text "super"
  | .null _ => text "null"
  | .bool _ value => text (if value then "true" else "false")
  | .number _ value => number value
  | .bigint _ digits => do
    text digits
    put 'n'
  | .regex _ pattern flags => do
    only ((← get).written.head? == some '/') (put ' ')
    put '/'
    text pattern
    put '/'
    text flags
  | .string _ value => chars (quoted value)
  | .template _ chunks values => do
    put '\x60'
    spliced chunks values
    put '\x60'
  | .tagged _ tag typeArguments chunks values => do
    expr (slot.operand .postfixed) tag
    typeArgs typeArguments
    put '\x60'
    spliced chunks values
    put '\x60'
  | .array _ elements => do
    put '['
    if elements.length ≤ 2 then
      exprs (pure ⟨⟩) (text ", ") elements
      only (endsInHole elements) (put ',')
    else
      deeper do
        freshLine
        exprs (pure ⟨⟩) commaLine elements
        only (endsInHole elements) (put ',')
      freshLine
    put ']'
  | .object span members => do
    let led := (← get).hasComment span.start
    wrapped (led || (← atStatement) || (← atResult)) do
      only led do
        commentsAt span.start
        indent
      put '\x7b'
      if members.length ≤ 1 then
        exprs (put ' ') (put ' ') members
        only (!members.isEmpty) (put ' ')
      else
        deeper do
          freshLine
          exprs (pure ⟨⟩) commaLine members
        freshLine
      put '\x7d'
  | .property _ k value shorthand => do
    only (!isShorthand k value shorthand) do
      only k.isInfinite (put '[')
      key k
      only k.isInfinite (put ']')
      text ": "
    expr .item value
  | .objectMethod _ kind k fn => do
    methodWord kind
    methodOf slot.toBans (key k) false fn
  | .spread _ value => do
    text "..."
    expr .item value
  | .hole _ => pure ⟨⟩
  | .function fn => do
    only fn.isPure (text (pureFunctionNote ++ " "))
    wrapped ((← atStatement) || (← atDefault) || fn.parenthesized)
      (function slot.toBans.callable fn)
  | .arrow fn => do
    only fn.isPure (text (pureFunctionNote ++ " "))
    wrapped (slot.bound ≥ .assign || fn.parenthesized) (arrow slot.toBans fn)
  | .classExpr decl => do
    wrapped ((← atStatement) || (← atDefault)) (classOf slot.toBans.callable decl)
  | .unary _ op value => do
    wrapped (slot.bound ≥ .prefixed) do
      if op.isWord then
        text op.spelling
        put ' '
      else sign op.spelling
      expr (slot.operand .power) value
  | .update _ op before value =>
    if before then
      wrapped (slot.bound ≥ .prefixed) do
        sign op.spelling
        expr (slot.operand .prefixed) value
    else
      wrapped (slot.bound ≥ .postfixed) do
        signGap op.spelling
        expr (slot.operand .postfixed) value
        text op.spelling
  | .binary _ op left right =>
    let wrap := slot.bound ≥ op.tightness || (op == .isIn && slot.noIn)
    let inside := slot.inside wrap
    wrapped wrap do
      expr (inside.operand (leftBoundOf op left)) left
      put ' '
      text op.spelling
      put ' '
      expr (inside.operand (rightBoundOf op right)) right
  | .privateIn _ name right =>
    wrapped (slot.bound ≥ .compare) do
      put '#'
      text name
      text " in "
      expr { bound := .equality, noIn := true } right
  | .assign _ op target value => do
    let misread := ((← atStatement) || (← atResult)) && target.isObject
    wrapped (misread || slot.bound ≥ .assign) do
      pattern false (pure ⟨⟩) target
      put ' '
      text op.spelling
      put ' '
      expr (slot.operand .comma) value
  | .choice _ test yes no =>
    let wrap := decide (slot.bound ≥ .choice)
    let inside := slot.inside wrap
    wrapped wrap do
      expr (inside.side .choice) test
      text " ? "
      expr { bound := .yielded } yes
      text " : "
      expr (inside.side .yielded) no
  | .sequence _ items =>
    wrapped (slot.bound ≥ .comma) (sequence slot.noIn (pure ⟨⟩) items)
  | .call span callee typeArguments args optional isPure => do
    let isStatement ← atStatement
    let isDefault ← atDefault
    wrapped (slot.bound ≥ .construct || slot.noCall || (isPure && slot.bound ≥ .postfixed)) do
      only isPure pureCallNote
      if isDefault then modify fun p => { p with defaultStart := some p.size }
      else if isStatement then modify fun p => { p with statementStart := some p.size }
      expr { bound := .postfixed } callee
      only optional (text "?.")
      typeArgs typeArguments
      arguments span args (exprs (pure ⟨⟩) (text ", ") args) (argumentLines (pure ⟨⟩) args)
  | .construct span callee _ args isPure =>
    wrapped (slot.bound ≥ .call || (isPure && slot.bound ≥ .postfixed)) do
      only isPure pureCallNote
      text "new "
      expr { bound := .construct, noCall := true } callee
      arguments span args (exprs (pure ⟨⟩) (text ", ") args) (argumentLines (pure ⟨⟩) args)
  | .member _ object property optional => do
    expr slot.object object
    if optional then text "?." else dot
    text property.name
  | .privateMember _ object name optional => do
    expr slot.object object
    text (if optional then "?.#" else ".#")
    text name
  | .index _ object k optional => do
    wrapped object.isLet (expr slot.object object)
    only optional (text "?.")
    put '['
    expr .whole k
    put ']'
  | .chain _ inner => wrapped (slot.bound ≥ .postfixed) (expr slot inner)
  | .paren _ inner => expr slot inner
  | .await _ value =>
    wrapped (slot.bound ≥ .prefixed) do
      text "await "
      expr (slot.operand .power) value
  | .yield _ delegate value =>
    wrapped (slot.bound ≥ .assign) do
      text (if delegate then "yield*" else "yield")
      expr? (put ' ') { bound := .yielded } value
  | .importCall span phase source options => do
    let led := importCallLed (← get) span source options
    wrapped (slot.bound ≥ .construct || slot.noCall) do
      text "import"
      match phase with
      | none => pure ⟨⟩
      | some word =>
        put '.'
        text word
      put '('
      if led then
        deeper do
          if ← commentLinesAt source.span.start then indent else freshLine
          expr .item source
          expr? commaLine .item options
          only (!(← closingComments span)) newline
      else
        expr .item source
        expr? (text ", ") .item options
      put ')'
  | .metaProperty _ object property => do
    text object
    put '.'
    text property
  | .asType _ value t =>
    wrapped (slot.bound ≥ .shift) do
      expr (slot.operand .power) value
      text " as "
      type t
  | .satisfies _ value t => do
    put '('
    wrapped (!value.bare.keepsParens) (expr { bound := slot.bound } value)
    text " satisfies "
    type t
    put ')'
  | .typeAssertion _ t value =>
    wrapped true do
      put '<'
      only t.isPlainFunction (put ' ')
      type t
      put '>'
      expr (slot.operand .member) value
  | .nonNull _ value => do
    wrapped value.isParen (expr slot value)
    put '!'
  | .instantiate _ value typeArguments => do
    expr slot value
    typeArgs typeArguments
  | .element _ tag _ attributes children selfClosing => do
    put '<'
    text tag
    markupAttributes attributes
    if selfClosing then text " />"
    else
      put '>'
      exprs (pure ⟨⟩) (pure ⟨⟩) children
      text "</"
      text tag
      put '>'
  | .fragment _ children => do
    text "<>"
    exprs (pure ⟨⟩) (pure ⟨⟩) children
    text "</>"
  | .attribute _ name value => do
    text name
    expr? (put '=') .whole value
  | .attributeText _ raw => do
    let quote := if raw.toList.contains '"' then '\'' else '"'
    put quote
    text raw
    put quote
  | .markupText _ raw => text raw
  | .container span inner => do
    put '\x7b'
    if inner.isNone && 0 < span.stop then commentsAt (span.stop - 1)
    markupInner inner
    put '\x7d'

/-- An expression behind something, if there is one. -/
def expr? (lead : Writing) (slot : Slot) : Option Expr → Writing
  | none => pure ⟨⟩
  | some e => do
    lead
    expr slot e

/-- The content of a container in markup. -/
def markupInner : Option Expr → Writing
  | none => pure ⟨⟩
  | some (.spread _ value) => do
    text "..."
    expr .whole value
  | some e => expr .whole e

/-- Items of a list with a separator. -/
def exprs (lead separator : Writing) : List Expr → Writing
  | [] => pure ⟨⟩
  | e :: rest => do
    lead
    expr .item e
    exprs separator separator rest

/-- The operands of the comma operator. -/
def sequence (noIn : Bool) (lead : Writing) : List Expr → Writing
  | [] => pure ⟨⟩
  | e :: rest => do
    lead
    expr { bound := .lowest, noIn } e
    sequence noIn (text ", ") rest

/-- The values spliced into a template, with the text between them. -/
def spliced (chunks : List TemplateChunk) : List Expr → Writing
  | [] => chunk chunks
  | e :: rest => do
    chunk chunks
    text "$\x7b"
    expr .whole e
    put '\x7d'
    spliced chunks.tail rest

/-- The attributes of a markup element. -/
def markupAttributes : List Expr → Writing
  | [] => pure ⟨⟩
  | .spread _ value :: rest => do
    text " \x7b..."
    expr .item value
    put '\x7d'
    markupAttributes rest
  | e :: rest => do
    put ' '
    expr .whole e
    markupAttributes rest

/-- Arguments, each on a line of its own behind its comments. -/
def argumentLines (lead : Writing) : List Expr → Writing
  | [] => pure ⟨⟩
  | e :: rest => do
    lead
    if ← commentLinesAt e.span.start then indent else freshLine
    expr .item e
    argumentLines (put ',') rest

/-- A type.  The members of object types are written by `signature`. -/
def type : TypeNode → Writing
  | .keyword _ name => text name
  | .reference _ parts args => do
    path parts
    typeArgs args
  | .query _ target args => do
    text "typeof "
    type target
    typeArgs args
  | .importType _ argument options parts args => do
    text "import("
    type argument
    expr? (text ", ") .item options
    put ')'
    only (!parts.isEmpty) do
      put '.'
      path parts
    typeArgs args
  | .requireModule _ source => do
    text "require("
    chars (quoted source.value)
    put ')'
  | .string _ value => chars (quoted value)
  | .number _ negative raw => do
    only negative (put '-')
    text raw
  | .bigint _ negative digits => do
    only negative (put '-')
    text digits
    put 'n'
  | .template _ chunks types => do
    put '\x60'
    if types.isEmpty then chunk chunks else templateTypes chunks types
    put '\x60'
  | .array _ item => do
    type item
    text "[]"
  | .tuple _ items => do
    put '['
    typesAfter (pure ⟨⟩) (text ", ") items
    put ']'
  | .optional _ item => do
    type item
    put '?'
  | .rest _ item => do
    text "..."
    type item
  | .labeled _ label optional item => do
    text label
    only optional (put '?')
    text ": "
    type item
  | .marked _ mark behind item => do
    typeMark mark !behind
    type item
    typeMark mark behind
  | .union _ items => typesAfter (pure ⟨⟩) (text " | ") items
  | .intersection _ items => typesAfter (pure ⟨⟩) (text " & ") items
  | .function _ isNew isAbstract typeParams params result => do
    only isAbstract (text "abstract ")
    only isNew (text "new ")
    typeParameters typeParams
    put '('
    paramsAfter (pure ⟨⟩) params
    text ") => "
    type result
  | .choice _ check bound yes no => do
    type check
    text " extends "
    type bound
    text " ? "
    type yes
    text " : "
    type no
  | .infer _ param => do
    text "infer "
    type param
  | .operator _ word operand => do
    text word
    put ' '
    type operand
  | .indexed _ object key => do
    type object
    put '['
    type key
    put ']'
  | .mapped _ readonlyMod name source rename optionalMod result => do
    text "\x7b "
    only (readonlyMod != .absent) do
      text (mappedSign readonlyMod)
      text "readonly "
    put '['
    text name
    text " in "
    type source
    type? " as " rename
    put ']'
    only (optionalMod != .absent) do
      text (mappedSign optionalMod)
      put '?'
    put ' '
    type? ": " result
    text " \x7d"
  | .object _ members => braces members.isEmpty (typeLines true members)
  | .paren _ inner => do
    put '('
    type inner
    put ')'
  | .predicate _ asserts subject result => do
    only asserts (text "asserts ")
    text subject
    type? " is " result
  | .parameter _ modifiers name bound default => do
    words modifiers
    text name
    type? " extends " bound
    type? " = " default
  | .propertySignature _ _ _ _ _ | .methodSignature _ _ _ _ _ _ _ | .callSignature _ _ _ _ _
  | .indexSignature _ _ _ _ _ => pure ⟨⟩

/-- A member of an object type or an interface.  In an object type a number that is a key keeps its
spelling. -/
def signature (inObject : Bool) : TypeNode → Writing
  | .propertySignature _ isReadonly k optional result => do
    only isReadonly (text "readonly ")
    typeKey inObject k
    only optional (put '?')
    type? ": " result
  | .methodSignature _ kind k optional typeParams params result => do
    methodWord kind
    typeKey inObject k
    only optional (put '?')
    typeParameters typeParams
    put '('
    paramsAfter (pure ⟨⟩) params
    put ')'
    type? ": " result
  | .callSignature _ isNew typeParams params result => do
    only isNew (text "new ")
    typeParameters typeParams
    put '('
    paramsAfter (pure ⟨⟩) params
    put ')'
    type? ": " result
  | .indexSignature _ isReadonly name index result => do
    only isReadonly (text "readonly ")
    put '['
    text name.name
    text ": "
    type index
    text "]: "
    type result
  | _ => pure ⟨⟩

/-- The key of a member of an object type or an interface. -/
def typeKey (inObject : Bool) : Key → Writing
  | .name _ name => text name
  | .string _ value => chars (quoted value)
  | .number _ value raw => if inObject then text raw else number value
  | .bigint _ digits => do
    text digits
    put 'n'
  | .privateName _ name => do
    put '#'
    text name
  | .computed inner => do
    put '['
    expr .item inner
    put ']'

/-- A type behind a word, if there is one. -/
def type? (lead : String) : Option TypeNode → Writing
  | none => pure ⟨⟩
  | some t => do
    text lead
    type t

/-- Types with a separator. -/
def typesAfter (lead separator : Writing) : List TypeNode → Writing
  | [] => pure ⟨⟩
  | t :: rest => do
    lead
    type t
    typesAfter separator separator rest

/-- Members of an object type or an interface, each on a line of its own. -/
def typeLines (inObject : Bool) : List TypeNode → Writing
  | [] => pure ⟨⟩
  | t :: rest => do
    commentsAt t.span.start
    indent
    signature inObject t
    semicolon
    typeLines inObject rest

/-- The types spliced into a template, with the text between them. -/
def templateTypes (chunks : List TemplateChunk) : List TypeNode → Writing
  | [] => typeChunk chunks
  | t :: rest => do
    typeChunk chunks
    text "$\x7b"
    type t
    put '\x7d'
    templateTypes chunks.tail rest

/-- Type arguments, if there are any. -/
def typeArgs : List TypeNode → Writing
  | [] => pure ⟨⟩
  | t :: rest => do
    put '<'
    type t
    typesAfter (text ", ") (text ", ") rest
    put '>'

/-- Type parameters, if there are any.  Where markup is allowed, a comma tells a single one from a
tag. -/
def typeParameters : List TypeNode → Writing
  | [] => pure ⟨⟩
  | t :: rest => do
    put '<'
    if rest.isEmpty then
      type t
      only (← get).markup (put ',')
    else
      deeper do
        freshLine
        type t
        typesAfter commaLine commaLine rest
      freshLine
    put '>'

/-- The key of a property or member. -/
def key : Key → Writing
  | .name _ name => text name
  | .string _ value => chars (quoted value)
  | .number _ value _ => number value
  | .bigint _ digits => do
    text digits
    put 'n'
  | .privateName _ name => do
    put '#'
    text name
  | .computed inner => do
    put '['
    expr .item inner
    put ']'

/-- A pattern with what is noted behind its target, in front of any default.  Binding patterns
have spaces inside their braces. -/
def pattern (binding : Bool) (note : Writing) : Pattern → Writing
  | .ident _ name => do
    text name
    note
  | .object _ properties => do
    if properties.isEmpty then text "\x7b\x7d"
    else
      put '\x7b'
      only binding (put ' ')
      patterns binding (pure ⟨⟩) (if binding then put ',' else text ", ") properties
      only binding (put ' ')
      put '\x7d'
    note
  | .property _ k value shorthand => do
    let isShort := if binding then isShorthandBinding k value else shorthand
    only (!isShort) do
      key k
      text ": "
    pattern binding note value
  | .array _ elements => do
    put '['
    only (binding && (elements.head?.map Pattern.isRest).getD false) (put ' ')
    patterns binding (pure ⟨⟩) (text ", ") elements
    only ((elements.getLast?.map Pattern.isHole).getD false) (put ',')
    put ']'
    note
  | .hole _ => note
  | .withDefault _ target value => do
    pattern binding note target
    text " = "
    expr .item value
  | .rest _ target => do
    text "..."
    pattern binding note target
  | .annotated target optional t =>
    pattern binding (do
      only optional (put '?')
      type? ": " t
      note) target
  | .place target => do
    expr .item target
    note

/-- Patterns separated by commas, with a separator of its own in front of what is left over. -/
def patterns (binding : Bool) (lead beforeRest : Writing) : List Pattern → Writing
  | [] => pure ⟨⟩
  | p :: rest => do
    lead
    pattern binding (pure ⟨⟩) p
    let next := if (rest.head?.map Pattern.isRest).getD false then beforeRest else text ", "
    patterns binding next beforeRest rest

/-- A parameter. -/
def param : Param → Writing
  | ⟨_, decs, access, overrides, isReadonly, target, optional, t⟩ => do
    decorators decs
    accessWord access
    only overrides (text "override ")
    only isReadonly (text "readonly ")
    pattern true (do
      only optional (put '?')
      type? ": " t) target

/-- A parameter in parentheses, if there is one. -/
def param? : Option Param → Writing
  | none => pure ⟨⟩
  | some p => do
    text " ("
    param p
    put ')'

/-- Parameters separated by commas. -/
def paramsAfter (lead : Writing) : List Param → Writing
  | [] => pure ⟨⟩
  | p :: rest => do
    lead
    param p
    paramsAfter (text ", ") rest

/-- A function with its keyword. -/
def function (bans : Bans) : Func → Writing
  | ⟨_, name, declared, isAsync, isGenerator, _, _, typeParams, receiver, params, returnType,
      body⟩ => do
    only declared (text "declare ")
    only isAsync (text "async ")
    text "function"
    only isGenerator (put '*')
    only (isGenerator || name.isSome) (put ' ')
    match name with
    | none => pure ⟨⟩
    | some id => text id.name
    typeParameters typeParams
    put '('
    paramsAfter (pure ⟨⟩) receiver
    paramsAfter (only (!receiver.isEmpty) (text ", ")) params
    put ')'
    type? ": " returnType
    bodyOf bans (put ' ') (put ';') body

/-- An arrow function. -/
def arrow (bans : Bans) : Func → Writing
  | ⟨_, _, _, isAsync, _, _, _, typeParams, receiver, params, returnType, body⟩ => do
    only isAsync (text "async ")
    typeParameters typeParams
    put '('
    paramsAfter (pure ⟨⟩) receiver
    paramsAfter (only (!receiver.isEmpty) (text ", ")) params
    put ')'
    type? ": " returnType
    text " => "
    bodyOf bans (pure ⟨⟩) (pure ⟨⟩) body

/-- A method with the given key, behind its modifiers.  Object literals leave out the type of the
receiver, and a semicolon in place of a missing body. -/
def methodOf (bans : Bans) (name : Writing) (inClass : Bool) : Func → Writing
  | ⟨_, _, _, isAsync, isGenerator, _, _, typeParams, receiver, params, returnType, body⟩ => do
    only isAsync (text "async ")
    only isGenerator (put '*')
    name
    typeParameters typeParams
    put '('
    if inClass then
      paramsAfter (pure ⟨⟩) receiver
      paramsAfter (only (!receiver.isEmpty) (text ", ")) params
    else paramsAfter (pure ⟨⟩) params
    put ')'
    type? ": " returnType
    bodyOf bans (put ' ') (only inClass (put ';')) body

/-- The body of a function behind a lead, or what stands in place of a missing one.  The brace
behind its last comments is indented like any other. -/
def bodyOf (bans : Bans) (lead missing : Writing) : Body → Writing
  | .missing => missing
  | .value result => do
    modify fun p => { p with resultStart := some p.size }
    expr (bans.slot .comma) result
  | .block span directives statements => do
    lead
    let last ← if 0 < span.stop then takeComments (span.stop - 1) else pure []
    let single := directives.isEmpty && statements.isEmpty
      && last.all fun c => !c.afterNewline && !c.beforeNewline
    braces single do
      directives.forM directive
      bodyStmts bans directives.isEmpty statements
      commentList last
      only (!last.isEmpty) (modify ({ · with spaceNext := false }))

/-- The body of a namespace. -/
def namespaceBody (bans : Bans) : Body → Writing
  | .missing => put ';'
  | .value _ => pure ⟨⟩
  | .block _ directives statements => do
    put ' '
    braces (directives.isEmpty && statements.isEmpty) do
      directives.forM directive
      bodyStmts bans directives.isEmpty statements

/-- Decorators, each followed by a space. -/
def decorators : List Decorator → Writing
  | [] => pure ⟨⟩
  | ⟨_, e⟩ :: rest => do
    put '@'
    wrapped (!isPlainDecorator e) (expr .whole e)
    put ' '
    decorators rest

/-- A class. -/
def classOf (bans : Bans) : ClassDef → Writing
  | ⟨_, decs, declared, isAbstract, name, typeParams, superClass, superTypeArgs, interfaces,
      body, _⟩ => do
    decorators decs
    only declared (text "declare ")
    only isAbstract (text "abstract ")
    text "class"
    match name with
    | none => pure ⟨⟩
    | some id =>
      put ' '
      text id.name
      typeParameters typeParams
    expr? (text " extends ") { bound := .postfixed } superClass
    typeArgs superTypeArgs
    typesAfter (text " implements ") (text ", ") interfaces
    put ' '
    braces body.isEmpty (members bans body)

/-- The members of a class. -/
def members (bans : Bans) : List Member → Writing
  | [] => pure ⟨⟩
  | m :: rest => do
    member bans m
    newline
    members bans rest

/-- A member of a class. -/
def member (bans : Bans) : Member → Writing
  | .method m => method bans m
  | .field f => do
    field f
    put ';'
  | .accessor f => do
    accessor f
    put ';'
  | .staticBlock span body => do
    commentsAt span.start
    indent
    text "static "
    braces body.isEmpty (stmts bans .line body)
  | .indexSignature span isReadonly name index result => do
    commentsAt span.start
    indent
    only isReadonly (text "readonly ")
    put '['
    text name.name
    text ": "
    type index
    text "]: "
    type result
    put ';'

/-- A method of a class. -/
def method (bans : Bans) : Method → Writing
  | ⟨span, decs, kind, k, isStatic, isAbstract, access, optional, fn⟩ => do
    commentsAt span.start
    indent
    decorators decs
    accessWord access
    only isAbstract (text "abstract ")
    only isStatic (text "static ")
    methodWord kind
    methodOf bans (do
      key k
      only optional (put '?')) true fn

/-- A field of a class that is read and written through an accessor. -/
def accessor : Field → Writing
  | ⟨span, decs, k, isStatic, isAbstract, _, _, overrides, access, _, t, value⟩ => do
    commentsAt span.start
    indent
    decorators decs
    only isAbstract (text "abstract ")
    accessWord access
    only isStatic (text "static ")
    only overrides (text "override ")
    text "accessor "
    key k
    type? ": " t
    expr? (text " = ") .item value

/-- A field of a class. -/
def field : Field → Writing
  | ⟨span, decs, k, isStatic, isAbstract, isReadonly, declared, _, access, optional, t,
      value⟩ => do
    commentsAt span.start
    indent
    decorators decs
    only declared (text "declare ")
    accessWord access
    only isAbstract (text "abstract ")
    only isStatic (text "static ")
    only isReadonly (text "readonly ")
    key k
    only optional (put '?')
    type? ": " t
    expr? (text " = ") .item value

/-- A statement.  What is forbidden around it holds for its variables and its parts. -/
def stmt (bans : Bans) (place : Placement) : Stmt → Writing
  | .expression span value => do
    start place span.start
    if place == .head then expr (bans.slot .lowest) value
    else
      modify fun p => { p with statementStart := some p.size }
      expr .whole value
    finish place
  | .block span body => do
    match place with
    | .line =>
      commentsAt span.start
      indent
    | .attached => put ' '
    | .chained | .inner | .head => pure ⟨⟩
    braces body.isEmpty (stmts bans .line body)
    finishBlock place
  | .empty span => do
    match place with
    | .line =>
      commentsAt span.start
      indent
    | .attached | .chained | .inner | .head => pure ⟨⟩
    semicolon
  | .branch span test yes no => do
    start place span.start
    text "if ("
    expr .whole test
    put ')'
    let open_ := yes.leavesBranchOpen
    if yes.isBlock then
      put ' '
      stmt bans .inner yes
    else if open_ then
      put ' '
      braces false (stmt bans .line yes)
    else stmt bans .attached yes
    let closed := yes.isBlock || open_
    match no with
    | none => only closed newline
    | some other =>
      if closed then put ' ' else indent
      text "else"
      if other.isBranch then
        put ' '
        stmt bans .chained other
      else stmt bans .attached other
  | .forLoop span init test update body => do
    start place span.start
    text "for ("
    stmt? .head (pure ⟨⟩) .head init
    put ';'
    expr? (put ' ') .whole test
    put ';'
    expr? (put ' ') .whole update
    put ')'
    stmt bans .attached body
  | .forIn span left right body => do
    start place span.start
    text "for ("
    wrapped left.isAsyncName (stmt .head .head left)
    text " in "
    expr .whole right
    put ')'
    stmt bans .attached body
  | .forOf span isAwait left right body => do
    start place span.start
    text (if isAwait then "for await (" else "for (")
    wrapped left.isAsyncName (stmt .head .head left)
    text " of "
    expr .item right
    put ')'
    stmt bans .attached body
  | .assignee target => pattern false (pure ⟨⟩) target
  | .whileLoop span test body => do
    start place span.start
    text "while ("
    expr .whole test
    put ')'
    stmt bans .attached body
  | .doWhile span body test => do
    start place span.start
    text "do"
    if body.isBlock then
      put ' '
      stmt bans .inner body
      put ' '
    else if body.isEmpty then stmt bans .line body
    else
      newline
      deeper (stmt bans .line body)
      indent
    text "while ("
    expr .whole test
    put ')'
    semicolon
  | .continueTo span label => do
    start place span.start
    text "continue"
    jumpLabel label
    semicolon
  | .breakTo span label => do
    start place span.start
    text "break"
    jumpLabel label
    semicolon
  | .returnValue span value => do
    start place span.start
    text "return"
    expr? (put ' ') .whole value
    semicolon
  | .withObject span object body => do
    start place span.start
    text "with("
    expr .whole object
    put ')'
    stmt bans .attached body
  | .switchOn span value cases => do
    start place span.start
    text "switch ("
    expr .whole value
    text ") "
    braces cases.isEmpty (stmts bans .line cases)
    newline
  | .switchCase _ test body => do
    indent
    match test with
    | none => text "default"
    | some e =>
      text "case "
      expr .whole e
    put ':'
    if body.length == 1 then stmts bans .attached body
    else
      newline
      deeper (stmts bans .line body)
  | .labeled span label body => do
    start place span.start
    text label.name
    put ':'
    stmt bans .attached body
  | .throwValue span value => do
    start place span.start
    text "throw "
    expr .whole value
    semicolon
  | .tryCatch span block handler finalizer => do
    start place span.start
    text "try "
    stmt bans .inner block
    stmt? bans (put ' ') .inner handler
    stmt? bans (text " finally ") .inner finalizer
    newline
  | .catchClause span parameter body => do
    commentsAt span.start
    text "catch"
    param? parameter
    put ' '
    stmt bans .inner body
  | .debugger span => do
    start place span.start
    text "debugger"
    semicolon
  | .variableDecl span declared kind items => do
    start place span.start
    only declared (text "declare ")
    text kind.spelling
    put ' '
    declarators bans (pure ⟨⟩) items
    finish place
  | .function fn => do
    start place fn.span.start
    only (place == .line || place == .attached) do
      only fn.isPure do
        pureFunctionLine true
        indent
    function bans.callable fn
    finishBlock place
  | .classDecl decl => do
    start place decl.span.start
    classOf bans.callable decl
    finishBlock place
  | .importDecl decl => do
    start place decl.span.start
    importDecl decl
  | .exportDecl span decl => do
    startNoted (pureFunctionLine decl.isPureFunction) place span.start
    text "export "
    stmt bans .chained decl
  | .exportDefault span decl => do
    startNoted (pureFunctionLine decl.isPureFunction) place span.start
    text "export default "
    stmt bans (if decl.isInterface then .inner else .chained) decl
  | .exportDefaultValue span value => do
    start place span.start
    text "export default "
    modify fun p => { p with defaultStart := some p.size }
    expr .item value
    semicolon
  | .exportList exports => do
    start place exports.span.start
    exportList exports
  | .exportAll exports => do
    start place exports.span.start
    exportAll exports
  | .exportAssign span value => do
    startTyped place span.start
    text "export = "
    expr .whole value
    semicolon
  | .exportGlobal span name => do
    startTyped place span.start
    text "export as namespace "
    text name.name
    semicolon
  | .importAlias span name target => do
    startTyped place span.start
    text "import "
    text name.name
    text " = "
    type target
    semicolon
  | .typeAlias span declared name typeParams t => do
    startTyped place span.start
    only declared (text "declare ")
    text "type "
    text name.name
    typeParameters typeParams
    text " = "
    type t
    semicolon
  | .interface span name typeParams parents body => do
    startTyped place span.start
    text "interface "
    text name.name
    typeParameters typeParams
    typesAfter (text " extends ") (text ", ") parents
    put ' '
    braces body.isEmpty (typeLines false body)
    finishBlock place
  | .enumeration span declared isConst name body => do
    startTyped place span.start
    indent
    only declared (text "declare ")
    only isConst (text "const ")
    text "enum "
    text name.name
    put ' '
    braces body.isEmpty do
      stmtsBetween bans (pure ⟨⟩) body
      only (!body.isEmpty) newline
    finishBlock place
  | .enumMember span k value => do
    commentsAt span.start
    indent
    key k
    expr? (text " = ") (bans.slot .lowest) value
  | .moduleBlock span declared kind name external body => do
    start place span.start
    only declared (text "declare ")
    text (match kind with
      | .moduleBlock => "module "
      | .namespaceBlock => "namespace "
      | .globalBlock => "")
    match external with
    | some source => chars (quoted source.value)
    | none => path name
    namespaceBody bans body
    finishBlock place

/-- A statement behind something, if there is one. -/
def stmt? (bans : Bans) (lead : Writing) (place : Placement) : Option Stmt → Writing
  | none => pure ⟨⟩
  | some s => do
    lead
    stmt bans place s

/-- Statements, the first of them at the given place and the others on lines of their own. -/
def stmts (bans : Bans) (place : Placement) : List Stmt → Writing
  | [] => pure ⟨⟩
  | s :: rest => do
    stmt bans place s
    stmts bans .line rest

/-- The statements of a body.  Without directives in front of it, a string that is the first
statement could be taken for one. -/
def bodyStmts (bans : Bans) (noDirectives : Bool) : List Stmt → Writing
  | [] => pure ⟨⟩
  | s :: rest => do
    match s.bareString? with
    | some value =>
      if noDirectives then
        put '('
        chars (quoted value)
        put ')'
        semicolon
      else stmt bans .line s
    | none => stmt bans .line s
    stmts bans .line rest

/-- Items of an enumeration, each on a line of its own. -/
def stmtsBetween (bans : Bans) (lead : Writing) : List Stmt → Writing
  | [] => pure ⟨⟩
  | s :: rest => do
    lead
    stmt bans .line s
    stmtsBetween bans (text ",\n") rest

/-- Variables separated by commas. -/
def declarators (bans : Bans) (lead : Writing) : List Declarator → Writing
  | [] => pure ⟨⟩
  | ⟨_, target, definite, optional, t, value⟩ :: rest => do
    lead
    pattern true (do
      only definite (put '!')
      only optional (put '?')
      type? ": " t) target
    expr? (text " = ") (bans.slot .comma) value
    declarators bans (text ", ") rest

end

end Writing

end ComponentLowering.Syntax
