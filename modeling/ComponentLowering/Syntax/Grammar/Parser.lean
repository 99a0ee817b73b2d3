/-
# Parsers

A parser reads tokens from a text and either produces syntax or fails at an offset.  The state
holds the current token, the text from it on, and the comments met so far.  When an alternative
fails, reading goes on from where it began.  Two things are kept of it: where no arrow function
begins, so that nested alternatives are not tried over and over, and the token that was read last,
since a note in front of that token counts wherever an expression may be noted as pure.
-/
import ComponentLowering.Syntax.Dialect
import ComponentLowering.Syntax.Lexer

namespace ComponentLowering.Syntax

open ComponentLowering.Text

/-- What the surrounding syntax admits.  `isSingle` tells that a statement is the whole body of
another one, `arrowBeforeColon` that an arrow function with a return type needs a colon behind
it, and `noChoiceType` that the word `extends` ends a type. -/
structure Surroundings where
  allowIn : Bool := true
  isAwait : Bool := false
  isYield : Bool := false
  isFunction : Bool := false
  isAmbient : Bool := false
  isSingle : Bool := false
  isDecorator : Bool := false
  arrowBeforeColon : Bool := false
  noChoiceType : Bool := false
deriving DecidableEq, Repr, Inhabited

/-- The state of a parser.  `openDefaults` are the places of shorthand properties with a default
value, which only patterns may hold; `commaAfterRest` are the places of literals in which a comma
follows a last spread element, which no pattern may hold; `refuted` are the places at which a
parenthesis does not begin an arrow function.  `newest` is the token that was read last, which is
the current one or, behind what was read in advance, one further on. -/
structure Reading where
  dialect : Dialect
  fuel : Nat
  token : Token
  newest : Token
  text : List Char
  after : Cursor
  lastEnd : Nat
  comments : List Comment
  openDefaults : List Nat
  commaAfterRest : List Nat
  refuted : List Nat
deriving Inhabited

/-- A computation that reads tokens. -/
abbrev Parser (α : Type) := ReaderT Surroundings (ExceptT SyntaxError (StateM Reading)) α

namespace Parser

variable {α : Type}

/-- The current token. -/
def peek : Parser Token := return (← get).token

/-- The dialect of the module. -/
def dialect : Parser Dialect := return (← get).dialect

/-- A bound on the number of tokens left. -/
def bound : Parser Nat := return (← get).fuel

/-- Fails at the current token. -/
def failure : Parser α := do
  throw ⟨(← get).token.span.start⟩

/-- Fails unless a condition holds. -/
def ensure (condition : Bool) : Parser PUnit :=
  if condition then pure () else failure

/-- The token behind a cursor, with the comments in front of it. -/
def tokenAfter (script : Bool) (fuel : Nat) (gap : CommentGap) (cursor : Cursor) :
    Token × List Char × Cursor × List Comment :=
  match skipTrivia script fuel ⟨cursor, gap, false⟩ with
  | .error e => (⟨.invalid, ⟨e.offset, e.offset⟩, false, false, false⟩, cursor.rest, cursor, [])
  | .ok t =>
    let start := t.cursor.offset
    let comments := t.gap.close start
    match lexemeAt fuel t.cursor with
    | .error _ => (⟨.invalid, ⟨start, start⟩, t.newline, false, false⟩, t.cursor.rest, t.cursor,
        comments)
    | .ok (lexeme, stop) =>
      let token : Token :=
        { lexeme, span := ⟨start, stop.offset⟩, afterNewline := t.newline
          notesPureCall := t.gap.makes .pureCall, notesPureFunction := t.gap.makes .pureFunction }
      (token, t.cursor.rest, stop, comments)

/-- The state whose current token is the first one behind a cursor. -/
def readFrom (s : Reading) (gap : CommentGap) (cursor : Cursor) : Reading :=
  let (token, text, after, comments) := tokenAfter s.dialect.script s.fuel gap cursor
  { s with token, newest := token, text, after, comments := comments ++ s.comments }

/-- The gap behind a token. -/
def gapAfter (t : Token) : CommentGap :=
  .after (!(t.isMark "=" || t.isMark "("))

/-- Moves behind the current token, whatever it is. -/
def skip : Parser PUnit :=
  modify fun s => { readFrom s (gapAfter s.token) s.after with lastEnd := s.token.span.stop }

/-- Moves behind the current token.  A word that is no name here has to be written without
escapes. -/
def advance : Parser PUnit := do
  ensure !(← peek).isEscaped
  skip

/-- Takes the current token. -/
def take : Parser Token := do
  let t ← peek
  advance
  return t

/-- The result of a parser, which is run without moving on; the given one when it fails.  The newest
token is the one that the parser came to. -/
def probe (fallback : α) (p : Parser α) : Parser α := fun c s =>
  match p c s with
  | (.ok a, s') => (.ok a, { s with newest := s'.newest })
  | (.error _, s') => (.ok fallback, { s with newest := s'.newest })

/-- The result of a parser, which is run without a trace; the given one when it fails. -/
def foresee (fallback : α) (p : Parser α) : Parser α := fun c s =>
  match p c s with
  | (.ok a, _) => (.ok a, s)
  | (.error _, _) => (.ok fallback, s)

/-- Whether a parser, which is run without a trace, succeeds with `true`. -/
def ahead (p : Parser Bool) : Parser Bool := foresee false p

/-- Runs a parser; when it fails, it has not moved on. -/
def attempt (p : Parser α) : Parser (Option α) := fun c s =>
  match p c s with
  | (.ok a, s') => (.ok (some a), s')
  | (.error _, s') => (.ok none, { s with refuted := s'.refuted, newest := s'.newest })

/-- Runs a parser within changed surroundings. -/
def within (change : Surroundings → Surroundings) (p : Parser α) : Parser α :=
  fun c s => p (change c) s

/-- Whether the token behind the current one satisfies a condition. -/
def nextIs (condition : Token → Bool) : Parser Bool :=
  ahead do
    skip
    return condition (← peek)

/-- Whether the token behind the current one, which is the newest then, satisfies a condition. -/
def probeNext (condition : Token → Bool) : Parser Bool :=
  probe false do
    skip
    return condition (← peek)

/-- Whether the current token is a punctuation mark. -/
def atMark (mark : String) : Parser Bool := return (← peek).isMark mark

/-- Whether the current token is a word. -/
def atWord (word : String) : Parser Bool := return (← peek).isWord word

/-- Takes a punctuation mark if it is there. -/
def eatMark (mark : String) : Parser Bool := do
  if ← atMark mark then
    advance
    return true
  else return false

/-- Takes a word if it is there. -/
def eatWord (word : String) : Parser Bool := do
  if ← atWord word then
    advance
    return true
  else return false

/-- Takes a punctuation mark that has to be there. -/
def expectMark (mark : String) : Parser PUnit := do
  ensure (← eatMark mark)

/-- Takes a word that has to be there. -/
def expectWord (word : String) : Parser PUnit := do
  ensure (← eatWord word)

/-- The offset of the current token. -/
def startOffset : Parser Nat := return (← peek).span.start

/-- The span from an offset to the end of the last token read. -/
def spanFrom (start : Nat) : Parser Span := return ⟨start, (← get).lastEnd⟩

/-- Repeats a parser until it answers `none`. -/
def repeatFrom (step : Parser (Option α)) : Nat → List α → Parser (List α)
  | 0, _ => failure
  | fuel + 1, acc => do
    match ← step with
    | none => return acc.reverse
    | some a => repeatFrom step fuel (a :: acc)

/-- The results of a parser, repeated until it answers `none`. -/
def collect (step : Parser (Option α)) : Parser (List α) := do
  repeatFrom step ((← bound) + 1) []

/-- Items separated by commas in front of a closing mark, which is left; a comma may follow the
last item. -/
def commaItems (close : String) (item : Parser α) : Parser (List α) := do
  let step : Parser (Option α) := do
    if ← atMark close then return none
    let a ← item
    if !(← atMark close) then expectMark ","
    return some a
  collect step

/-- One or more items separated by a mark. -/
def separated (mark : String) (item : Parser α) : Parser (List α) := do
  let first ← item
  let more ← collect do
    if ← eatMark mark then return some (← item) else return none
  return first :: more

/-- The end of a statement: a semicolon, or a place where one may be left out. -/
def semicolon : Parser PUnit := do
  let t ← peek
  if t.isMark ";" then advance
  else ensure (t.isMark "\x7d" || t.lexeme == .endOfText || t.afterNewline)

/-- Cuts the current mark after its first character, as for the two ends of `A<B<C>>`. -/
def splitMark : Parser PUnit :=
  modify fun s =>
    match s.text with
    | c :: rest =>
      { s with
        token := { s.token with
          lexeme := .mark c.toString
          span := ⟨s.token.span.start, s.token.span.start + 1⟩ }
        after := ⟨rest, s.token.span.start + 1⟩ }
    | [] => s

/-- Whether the current token begins with `>`. -/
def atClosingAngle : Parser Bool :=
  return (← peek).isMarkOf [">", ">>", ">>>", ">=", ">>=", ">>>="]

/-- Takes one closing angle bracket. -/
def closingAngle : Parser PUnit := do
  ensure (← atClosingAngle)
  splitMark
  advance

/-- Whether the current token begins with `<`. -/
def atOpeningAngle : Parser Bool := return (← peek).isMarkOf ["<", "<<"]

/-- Takes one opening angle bracket. -/
def openingAngle : Parser PUnit := do
  ensure (← atOpeningAngle)
  splitMark
  advance

/-- Whether a word may stand for a name: it is not reserved. -/
def isNameWord (t : Token) : Bool :=
  match t.lexeme with
  | .word name _ => !reservedWords.contains name
  | _ => false

/-- Fails unless the current token may stand for a name. -/
def ensureName : Parser PUnit := do
  ensure (isNameWord (← peek))

/-- Whether a token is a word of any kind. -/
def isAnyWord (t : Token) : Bool :=
  match t.lexeme with
  | .word _ _ => true
  | _ => false

/-- A name that is used or bound.  `await` and `yield` are names only where they are not
operators. -/
def name : Parser Ident := do
  let t ← peek
  match t.lexeme with
  | .word n _ =>
    let c ← read
    if reservedWords.contains n || (n == "await" && c.isAwait) || (n == "yield" && c.isYield) then
      failure
    else
      skip
      return ⟨t.span, n⟩
  | _ => failure

/-- Any word, as after a dot. -/
def anyWord : Parser Ident := do
  let t ← peek
  match t.lexeme with
  | .word n _ =>
    skip
    return ⟨t.span, n⟩
  | _ => failure

/-- Any word that is no name here. -/
def takeWord : Parser String := do
  let t ← take
  match t.lexeme with
  | .word n _ => return n
  | _ => failure

/-- The beginning of a text, up to a number of bytes. -/
def bytePrefix : Nat → List Char → List Char
  | 0, _ => []
  | _, [] => []
  | n + 1, c :: rest => c :: bytePrefix (n + 1 - byteWidth c) rest

/-- The text of the current token. -/
def tokenText : Parser (List Char) := do
  let s ← get
  return bytePrefix (s.token.span.stop - s.token.span.start) s.text

/-- A string literal. -/
def stringLiteral : Parser StringLiteral := do
  let t ← peek
  match t.lexeme with
  | .string value =>
    advance
    return ⟨t.span, value⟩
  | _ => failure

/-- The template chunk behind the closing brace of a substitution. -/
def templateRest : Parser (TemplateChunk × Bool) := do
  ensure (← atMark "\x7d")
  let s ← get
  match templateFrom s.fuel s.token.span.start s.after with
  | .ok (.template chunk closed, stop) =>
    let token : Token :=
      { lexeme := .template chunk closed, span := ⟨s.token.span.start, stop.offset⟩
        afterNewline := false }
    set { s with token, after := stop }
    advance
    return (chunk, closed)
  | _ => failure

/-- The items and chunks behind the first chunk of an open template, latest first before them. -/
def templateTail (item : Parser α) :
    Nat → List TemplateChunk → List α → Parser (List TemplateChunk × List α)
  | 0, _, _ => failure
  | fuel + 1, chunks, items => do
    let a ← item
    let (next, closed) ← templateRest
    if closed then return ((next :: chunks).reverse, (a :: items).reverse)
    else templateTail item fuel (next :: chunks) (a :: items)

/-- A template literal: its chunks and what stands between them. -/
def templateParts (item : Parser α) : Parser (List TemplateChunk × List α) := do
  match (← peek).lexeme with
  | .template chunk true =>
    advance
    return ([chunk], [])
  | .template chunk false =>
    advance
    templateTail item ((← bound) + 1) [chunk] []
  | _ => failure

end Parser

end ComponentLowering.Syntax
