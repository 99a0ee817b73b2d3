/-
# Pages

The text that a printer has written so far, together with what decides how it goes on: the depth
of the indentation, the comments that are still to be written, and the places at which an
expression would be misread and takes parentheses.
-/
import ComponentLowering.Syntax.Comment
import ComponentLowering.Syntax.Literal
import ComponentLowering.Syntax.Printer.Quoted
import ComponentLowering.Text.Blank

namespace ComponentLowering.Syntax

open ComponentLowering.Text ComponentLowering.Number

/-- A partly written text, latest character first. -/
structure Page where
  written : List Char
  size : Nat
  depth : Nat
  /-- Whether the next indentation is a single space. -/
  spaceNext : Bool
  /-- The module that the comments are spans of. -/
  source : List Char
  /-- The comments that have not been written yet. -/
  comments : List Comment
  /-- Whether a single type parameter is followed by a comma. -/
  markup : Bool
  /-- Where the latest expression statement starts. -/
  statementStart : Option Nat
  /-- Where the latest result of an arrow function starts. -/
  resultStart : Option Nat
  /-- Where the latest default export starts. -/
  defaultStart : Option Nat
  /-- Where the latest number that would run together with a dot ends. -/
  numberEnd : Option Nat
  /-- Where the latest sign in front of an operand ends, and the sign. -/
  signEnd : Option (Nat × Char)
deriving Inhabited

/-- A step of writing. -/
abbrev Writing := StateM Page PUnit

namespace Page

/-- An empty page for the comments of a module. -/
def blank (source : List Char) (comments : List Comment) (markup : Bool) : Page :=
  { written := [], size := 0, depth := 0, spaceNext := false, source
    comments := comments.filter (·.isWritten), markup
    statementStart := none, resultStart := none, defaultStart := none, numberEnd := none
    signEnd := none }

/-- The text of a page. -/
def text (page : Page) : List Char := page.written.reverse

/-- Adds characters. -/
def append (page : Page) (cs : List Char) : Page :=
  { page with written := cs.reverse ++ page.written, size := page.size + cs.length }

/-- Whether a comment is anchored at an offset. -/
def hasComment (page : Page) (offset : Nat) : Bool :=
  page.comments.any (·.anchor == offset)

end Page

namespace Writing

/-- Writes characters. -/
def chars (cs : List Char) : Writing := modify (·.append cs)

/-- Writes a character. -/
def put (c : Char) : Writing :=
  modify fun p => { p with written := c :: p.written, size := p.size + 1 }

/-- Writes a text. -/
def text (s : String) : Writing := chars s.toList

/-- Ends the line. -/
def newline : Writing := put '\n'

/-- Indents: by a tab for each level, or by one space where that has been asked for. -/
def indent : Writing := modify fun p =>
  if p.spaceNext then
    { p with written := ' ' :: p.written, size := p.size + 1, spaceNext := false }
  else p.append (List.replicate p.depth '\t')

/-- Asks for a space in place of the next indentation. -/
def stayOnLine : Writing := modify ({ · with spaceNext := true })

/-- Writes one level deeper. -/
def deeper (w : Writing) : Writing := do
  modify fun p => { p with depth := p.depth + 1 }
  w
  modify fun p => { p with depth := p.depth - 1 }

/-- Writes between parentheses if they are needed. -/
def wrapped (needed : Bool) (w : Writing) : Writing := do
  if needed then put '('
  w
  if needed then put ')'

/-- Writes if a condition holds. -/
def only (condition : Bool) (w : Writing) : Writing := if condition then w else pure ⟨⟩

/-- Writes between braces, on lines of their own unless there is nothing to write. -/
def braces (single : Bool) (w : Writing) : Writing := do
  put '\x7b'
  if single then w
  else
    newline
    deeper w
    indent
  put '\x7d'

/-- Ends a statement. -/
def semicolon : Writing := text ";\n"

/-- A separator that starts a new line. -/
def commaLine : Writing := do
  put ','
  newline
  indent

/-- A new line at the current depth. -/
def freshLine : Writing := do
  newline
  indent

/-! ### Comments -/

/-- Splits a text at its line ends. -/
def linesOf : List Char → List (List Char)
  | [] => [[]]
  | '\r' :: '\n' :: rest => [] :: linesOf rest
  | c :: rest =>
    if c = '\n' || c = '\r' || c = '\u2028' || c = '\u2029' then [] :: linesOf rest
    else
      match linesOf rest with
      | line :: lines => (c :: line) :: lines
      | [] => [[c]]

/-- Breaks up the closing script tags of a text. -/
def withoutScriptTags : List Char → List Char
  | [] => []
  | c :: rest =>
    if c = '<' && startsWithAnyCase "/script".toList (rest.map .char) then
      '<' :: '\\' :: withoutScriptTags rest
    else c :: withoutScriptTags rest

/-- One line of a block comment, indented like the code around it. -/
def commentLine (line : List Char) : Writing := do
  only (!"/*".toList.isPrefixOf line) indent
  chars (withoutScriptTags (line.dropWhile isBlank))
  only (!"*/".toList.isSuffixOf line) newline

/-- The text of a comment. -/
def comment (c : Comment) : Writing := do
  let cs := sliceFrom c.span 0 (← get).source
  match c.kind with
  | .line => chars (withoutScriptTags cs)
  | .block => (linesOf cs).forM commentLine

/-- What stands in front of the first of some comments. -/
def beforeFirst (c : Comment) : Writing := do
  if c.afterNewline then
    match (← get).written with
    | [] => pure ⟨⟩
    | last :: _ =>
      if last = '\n' then indent
      else if last = '\t' then pure ⟨⟩
      else freshLine
  else indent

/-- What stands in front of a further comment at the same place.  One that asks to be kept starts on
a line of its own. -/
def beforeNext (c : Comment) : Writing :=
  if c.afterNewline then freshLine else only c.isLegal newline

/-- Further comments, and what stands behind the last one. -/
def moreComments (last : Comment) : List Comment → Writing
  | [] => if last.kind == .line || last.beforeNewline then newline else stayOnLine
  | c :: rest => do
    beforeNext c
    comment c
    moreComments c rest

/-- Comments in front of the syntax that they lead. -/
def commentList : List Comment → Writing
  | [] => pure ⟨⟩
  | c :: rest => do
    beforeFirst c
    comment c
    moreComments c rest

/-- Takes out the comments that are anchored at an offset. -/
def takeComments (offset : Nat) : StateM Page (List Comment) :=
  modifyGet fun p =>
    let (here, others) := p.comments.partition (·.anchor == offset)
    (here, { p with comments := others })

/-- Writes the comments that are anchored at an offset. -/
def commentsAt (offset : Nat) : Writing := do commentList (← takeComments offset)

/-- Writes the comments that are anchored at an offset, each on a line of its own, and tells
whether there were any. -/
def commentLinesAt (offset : Nat) : StateM Page Bool := do
  let here ← takeComments offset
  here.forM fun c => do
    freshLine
    comment c
  if here.isEmpty then return false
  newline
  return true

/-! ### Literals -/

/-- A number. -/
def number (value : Binary64) : Writing := do
  let spelling := numberSpelling value
  chars spelling
  if meetsDot spelling then modify fun p => { p with numberEnd := some p.size }

/-- A dot in front of a member name. -/
def dot : Writing := do
  let page ← get
  only (page.numberEnd == some page.size) (put ' ')
  put '.'

/-- The space in front of an operator that would run together with the sign before it. -/
def signGap (spelling : String) : Writing := do
  let page ← get
  match page.signEnd, spelling.toList with
  | some (stop, c), first :: _ => only (stop == page.size && c == first) (put ' ')
  | _, _ => pure ⟨⟩

/-- An operator in front of its operand. -/
def sign (spelling : String) : Writing := do
  signGap spelling
  text spelling
  match spelling.toList with
  | ['+'] => modify fun p => { p with signEnd := some (p.size, '+') }
  | ['-'] => modify fun p => { p with signEnd := some (p.size, '-') }
  | _ => pure ⟨⟩

/-- The raw text of a piece of a template literal. -/
def chunk (chunks : List TemplateChunk) : Writing :=
  match chunks with
  | [] => pure ⟨⟩
  | c :: _ => chars (withoutScriptTags c.raw.toList)

/-- The raw text of a piece of a template type. -/
def typeChunk (chunks : List TemplateChunk) : Writing :=
  match chunks with
  | [] => pure ⟨⟩
  | c :: _ => text c.raw

end Writing

end ComponentLowering.Syntax
