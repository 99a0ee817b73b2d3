/-
# Modules

A module as read from its text: its statements and, beside them, the comments in the order of the
text.  `Module.read` accepts a text if the grammar of the dialect takes all of it.
-/
import ComponentLowering.Syntax.Exported
import ComponentLowering.Syntax.Grammar.Statements

namespace ComponentLowering.Syntax

open ComponentLowering.Text

/-- A module. -/
structure Module where
  source : List Char
  dialect : Dialect
  hashbang : Option String
  directives : List Directive
  body : List Stmt
  comments : List Comment
  stop : Nat
deriving Inhabited

namespace Module

/-- Drops a byte-order mark. -/
def afterMark : Cursor → Cursor
  | ⟨c :: rest, offset⟩ => if c = '\uFEFF' then ⟨rest, offset + 3⟩ else ⟨c :: rest, offset⟩
  | cursor => cursor

/-- The interpreter line at the start of a text. -/
def hashbangOf (fuel : Nat) (cursor : Cursor) : Option String × Cursor :=
  match cursor.rest with
  | '#' :: '!' :: rest =>
    let stop := lineRest fuel ⟨rest, cursor.offset + 2⟩
    (some (String.ofList (rest.take (rest.length - stop.rest.length))), stop)
  | _ => (none, cursor)

/-- The state in front of the first token of a text. -/
def initial (dialect : Dialect) (source : List Char) : Option String × Reading :=
  let fuel := source.length + 2
  let (hashbang, cursor) := hashbangOf fuel (afterMark ⟨source, 0⟩)
  let gap := if hashbang.isSome then CommentGap.after true else .atStart
  let blank : Reading :=
    { dialect, fuel, token := ⟨.invalid, ⟨0, 0⟩, true, false, false⟩, newest := default
      text := source, after := cursor, lastEnd := 0, comments := [], openDefaults := []
      commaAfterRest := [], refuted := [] }
  (hashbang, Parser.readFrom blank gap cursor)

/-- All statements of a text.  Only typed modules may export a name twice. -/
def topLevel (r : Rules) : Parser (List Directive × List Stmt) := do
  let (directives, body) ← Parser.bodyUpTo r fun t => t.lexeme == .endOfText
  Parser.ensure (← get).openDefaults.isEmpty
  Parser.ensure ((← Parser.dialect).types || exportsOnce body)
  return (directives, body)

/-- What the top of a module admits. -/
def surroundings (dialect : Dialect) : Surroundings :=
  { isAwait := !dialect.script, isAmbient := dialect.declarations }

/-- Reads a module. -/
def read (dialect : Dialect) (source : List Char) : Except SyntaxError Module :=
  let (hashbang, start) := initial dialect source
  let r := Parser.rules (start.fuel + 2)
  match topLevel r (surroundings dialect) start with
  | (.error e, _) => .error e
  | (.ok (directives, body), s) =>
    .ok { source, dialect, hashbang, directives, body, comments := s.comments.reverse
          stop := byteLength source }

end Module

end ComponentLowering.Syntax
