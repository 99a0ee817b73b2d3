/-
# The grammar of markup

Elements and fragments, their attributes and their children.  The text between two children is
not divided into tokens.
-/
import ComponentLowering.Syntax.Grammar.Expressions

namespace ComponentLowering.Syntax

open ComponentLowering.Text ComponentLowering.Number

namespace Parser

section

variable (r : Rules)

/-- The rest of a markup name, latest character first; hyphens belong to it. -/
def markupNameRest : Nat → List Char → Cursor → List Char × Cursor
  | fuel + 1, acc, cursor =>
    match cursor.rest with
    | c :: rest =>
      if isIdentifierPart c || c == '-' then
        markupNameRest fuel (c :: acc) ⟨rest, cursor.offset + byteWidth c⟩
      else (acc, cursor)
    | [] => (acc, cursor)
  | 0, acc, cursor => (acc, cursor)

/-- A markup name without dots or colons. -/
def markupWord : Parser String := do
  let s ← get
  ensure (isAnyWord s.token)
  let (acc, stop) := markupNameRest s.fuel [] ⟨s.text, s.token.span.start⟩
  let token : Token := { s.token with span := ⟨s.token.span.start, stop.offset⟩ }
  set { s with token, after := stop }
  advance
  return String.ofList acc.reverse

/-- A markup name. -/
def markupName : Parser String := do
  let first ← markupWord
  if ← eatMark ":" then return first ++ ":" ++ (← markupWord)
  else
    let more ← collect do
      if ← eatMark "." then return some (← anyWord).name else return none
    return ".".intercalate (first :: more)

/-- The raw text up to a quote. -/
def quotedText (quote : Char) : Nat → List Char → Cursor → Option (List Char × Cursor)
  | fuel + 1, acc, cursor =>
    match cursor.rest with
    | [] => none
    | c :: rest =>
      let next : Cursor := ⟨rest, cursor.offset + byteWidth c⟩
      if c = quote then some (acc, next) else quotedText quote fuel (c :: acc) next
  | 0, _, _ => none

/-- The value of a markup attribute, with the equals sign as the current token. -/
def markupValue : Parser Expr := do
  let s ← get
  let (next, text, _, _) := tokenAfter s.dialect.script s.fuel (gapAfter s.token) s.after
  let start := next.span.start
  match text with
  | c :: rest =>
    if c = '"' ∨ c = '\'' then
      match quotedText c s.fuel [] ⟨rest, start + 1⟩ with
      | none => failure
      | some (acc, stop) =>
        let span : Span := ⟨start, stop.offset⟩
        set { s with token := { s.token with lexeme := .invalid, span }, after := stop }
        advance
        return .attributeText span (String.ofList acc.reverse)
    else
      advance
      if ← atMark "\x7b" then
        let containerStart ← startOffset
        advance
        let inner ← if ← atMark "\x7d" then pure none
          else some <$> bracketed (expression r)
        expectMark "\x7d"
        return .container (← spanFrom containerStart) inner
      else r.markup true
  | [] => failure

/-- An attribute of a markup element. -/
def markupAttribute : Parser Expr := do
  let start ← startOffset
  if ← eatMark "\x7b" then
    expectMark "..."
    let value ← bracketed (expression r)
    expectMark "\x7d"
    return .spread (← spanFrom start) value
  else
    let first ← markupWord
    let n ← if ← eatMark ":" then do
        let second ← markupWord
        pure (first ++ ":" ++ second)
      else pure first
    if ← atMark "=" then
      let value ← markupValue r
      return .attribute (← spanFrom start) n (some value)
    else return .attribute (← spanFrom start) n none

/-- The text up to the next child or container, latest character first. -/
def markupTextRest : Nat → List Char → Cursor → Option (List Char × Cursor)
  | fuel + 1, acc, cursor =>
    match cursor.rest with
    | [] => none
    | c :: rest =>
      if c = '<' ∨ c = '{' then some (acc, cursor)
      else if c = '>' ∨ c = '}' then none
      else markupTextRest fuel (c :: acc) ⟨rest, cursor.offset + byteWidth c⟩
  | 0, _, _ => none

/-- The children of an element, behind the current token, up to the slash of its end. -/
def markupChildren : Nat → List Expr → Parser (List Expr)
  | 0, _ => failure
  | fuel + 1, acc => do
    let s ← get
    match markupTextRest s.fuel [] s.after with
    | none => failure
    | some (text, stop) =>
      let acc := if text.isEmpty then acc
        else .markupText ⟨s.after.offset, stop.offset⟩ (String.ofList text.reverse) :: acc
      set (readFrom s (gapAfter s.token) stop)
      let start ← startOffset
      if ← atMark "\x7b" then
        advance
        if ← atMark "\x7d" then
          let t ← peek
          markupChildren fuel (.container ⟨start, t.span.stop⟩ none :: acc)
        else if ← eatMark "..." then
          let value ← bracketed (expression r)
          ensure (← atMark "\x7d")
          let t ← peek
          markupChildren fuel
            (.container ⟨start, t.span.stop⟩ (some (.spread ⟨start, t.span.stop⟩ value)) :: acc)
        else
          let inner ← bracketed (expression r)
          ensure (← atMark "\x7d")
          let t ← peek
          markupChildren fuel (.container ⟨start, t.span.stop⟩ (some inner) :: acc)
      else
        splitMark
        if ← nextIs fun u => u.isMarkOf ["/", "/="] then
          advance
          return acc.reverse
        else
          let child ← r.markup false
          markupChildren fuel (child :: acc)

/-- The closing angle bracket of a tag.  Text follows it unless the element is complete. -/
def markupTagEnd (leave : Bool) : Parser Nat := do
  ensure (← atClosingAngle)
  splitMark
  let t ← peek
  if leave then advance
  return t.span.stop

/-- A markup element, from its opening angle bracket on. -/
def markupElement (leave : Bool) : Parser Expr := do
  let start ← startOffset
  splitMark
  expectMark "<"
  if ← atMark ">" then
    let _ ← markupTagEnd false
    let children ← markupChildren r ((← bound) + 1) []
    expectMark "/"
    let stop ← markupTagEnd leave
    return .fragment ⟨start, stop⟩ children
  else
    let tag ← markupName
    let typeArgs ← if (← dialect).types && (← atMark "<") then typeArgs r else pure []
    let attributes ← collect do
      if (← peek).isMark "/" || (← atClosingAngle) then return none
      return some (← markupAttribute r)
    if ← eatMark "/" then
      let stop ← markupTagEnd leave
      return .element ⟨start, stop⟩ tag typeArgs attributes [] true
    else
      let _ ← markupTagEnd false
      let children ← markupChildren r ((← bound) + 1) []
      expectMark "/"
      let closing ← markupName
      ensure (closing == tag)
      let stop ← markupTagEnd leave
      return .element ⟨start, stop⟩ tag typeArgs attributes children false

end

end Parser

end ComponentLowering.Syntax
