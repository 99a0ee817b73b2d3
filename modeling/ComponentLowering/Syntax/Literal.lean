/-
# Pieces of literals

What a token and a piece of syntax both hold: a string with its place, and the text between the
substitutions of a template.
-/
import ComponentLowering.Syntax.Span
import ComponentLowering.Text.StringValue
import ComponentLowering.Number.Binary64

namespace ComponentLowering.Syntax

open ComponentLowering.Text

/-- A piece of a template literal: its raw text and its value, if its escapes are valid. -/
structure TemplateChunk where
  span : Span
  raw : String
  cooked : Option String
deriving DecidableEq, Repr, Inhabited

/-- A string literal with its place. -/
structure StringLiteral where
  span : Span
  value : StringValue
deriving DecidableEq, Repr, Inhabited

end ComponentLowering.Syntax
