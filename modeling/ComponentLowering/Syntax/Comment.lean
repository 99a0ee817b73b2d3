/-
# Comments

A comment is anchored at an offset of the text.  The printer writes a leading comment in front of
the first syntax that starts at its anchor; a trailing comment is never written again, and neither
is a note that marks the syntax behind it as pure.
-/
import ComponentLowering.Syntax.Span
import ComponentLowering.Text.Blank

namespace ComponentLowering.Syntax

open ComponentLowering.Text

/-- The two notations of comments. -/
inductive CommentKind where
  | line | block
deriving DecidableEq, Repr, Inhabited

/-- What a comment says to tools: that it states a licence or asks to be kept, that the call
behind it has no effect, or that calls of the function behind it have none. -/
inductive CommentNote where
  | none | legal | pureCall | pureFunction
deriving DecidableEq, Repr, Inhabited

/-- Whether a text is found inside another. -/
def foundIn (word : List Char) : List Char → Bool
  | [] => word.isEmpty
  | c :: rest => word.isPrefixOf (c :: rest) || foundIn word rest

/-- Whether a text mentions a licence or asks to be kept. -/
def mentionsLicence (cs : List Char) : Bool :=
  foundIn "@license".toList cs || foundIn "@preserve".toList cs

/-- The note that the text of a comment, without its marks, makes.  Comments that speak to bundlers
and coverage tools make none, whatever else they hold. -/
def noteOf (kind : CommentKind) (cs : List Char) : CommentNote :=
  let legalIf (condition : Bool) : CommentNote := if condition then .legal else .none
  let pureNote (cs : List Char) : Option CommentNote :=
    if "__PURE__".toList.isPrefixOf cs then some .pureCall
    else if "__NO_SIDE_EFFECTS__".toList.isPrefixOf cs then some .pureFunction
    else none
  if cs.head? == some '!' then .legal
  else if kind == .block && cs.head? == some '*' then
    legalIf (!cs.all (· == '*') && mentionsLicence cs)
  else
    match cs.dropWhile isAsciiBlank with
    | '@' :: rest =>
      (pureNote rest).getD
        (legalIf ("license".toList.isPrefixOf rest || "preserve".toList.isPrefixOf rest))
    | '#' :: rest => (pureNote rest).getD .none
    | c :: rest => legalIf (!(['v', 'c', 'n', 'i', 'w'].contains c) && mentionsLicence (c :: rest))
    | [] => .none

/-- A comment of a module. -/
structure Comment where
  span : Span
  kind : CommentKind
  note : CommentNote
  anchor : Nat
  leading : Bool
  afterNewline : Bool
  beforeNewline : Bool
deriving DecidableEq, Repr, Inhabited

namespace Comment

/-- Whether a comment is written in front of the syntax at its anchor. -/
def isWritten (c : Comment) : Bool :=
  c.leading && c.note != .pureCall && c.note != .pureFunction

/-- Whether a comment starts on a line of its own behind another one. -/
def isLegal (c : Comment) : Bool := c.note == .legal

end Comment

/-- The comments between two tokens, latest first, while the gap between them is being read.
`pending` ones will lead the next token; `settled` ones trail the previous token.  Behind some
tokens no line comment trails. -/
structure CommentGap where
  lineMayTrail : Bool
  sawNewline : Bool
  pending : List Comment
  settled : List Comment
deriving Inhabited

namespace CommentGap

/-- The gap that follows a token.  After `=` or `(` no line comment is a trailing one. -/
def after (lineMayTrail : Bool) : CommentGap := ⟨lineMayTrail, false, [], []⟩

/-- The gap at the start of a text, which counts as the start of a line. -/
def atStart : CommentGap := ⟨true, true, [], []⟩

/-- All pending comments become trailing ones. -/
def settle (gap : CommentGap) : CommentGap :=
  { gap with
    pending := []
    settled := gap.pending.map (fun c => { c with leading := false, anchor := 0 }) ++ gap.settled }

/-- A line break outside of comments.  It settles the comments on the line of the previous
token. -/
def newline (gap : CommentGap) : CommentGap :=
  match gap.pending with
  | [] => { gap with sawNewline := true }
  | last :: earlier =>
    let gap := { gap with pending := { last with beforeNewline := true } :: earlier }
    let gap := if gap.sawNewline then gap else gap.settle
    { gap with sawNewline := true }

/-- A comment with its text.  A line comment ends its line. -/
def comment (gap : CommentGap) (kind : CommentKind) (span : Span) (text : List Char) :
    CommentGap :=
  let c : Comment :=
    { span, kind, note := noteOf kind text, anchor := 0, leading := true
      afterNewline := gap.sawNewline, beforeNewline := kind == .line }
  let gap := { gap with pending := c :: gap.pending }
  match kind with
  | .block => gap
  | .line =>
    let gap := if !gap.sawNewline && gap.lineMayTrail then gap.settle else gap
    { gap with sawNewline := true }

/-- Whether a comment of the gap makes a note. -/
def makes (gap : CommentGap) (note : CommentNote) : Bool :=
  gap.pending.any (·.note == note) || gap.settled.any (·.note == note)

/-- The comments of the gap, latest first, once the next token is known to start at `offset`. -/
def close (gap : CommentGap) (offset : Nat) : List Comment :=
  gap.pending.map (fun c => { c with anchor := offset }) ++ gap.settled

end CommentGap

end ComponentLowering.Syntax
