/-
# Identifier characters

The characters of identifiers, and the plain ASCII names that need no quoting.
-/
import ComponentLowering.Text.CodePointRanges
import ComponentLowering.Text.IdentifierTable

namespace ComponentLowering.Text

/-- An ASCII letter, an underscore or a dollar sign. -/
def isAsciiNameStart (c : Char) : Bool :=
  c.isAlpha || c == '_' || c == '$'

/-- An ASCII letter or digit, an underscore or a dollar sign. -/
def isAsciiNamePart (c : Char) : Bool :=
  c.isAlphanum || c == '_' || c == '$'

/-- The characters that begin an identifier of the language. -/
def isIdentifierStart (c : Char) : Bool :=
  isAsciiNameStart c || (0x80 ≤ c.toNat && inRanges startRanges c.toNat)

/-- The characters that continue an identifier of the language. -/
def isIdentifierPart (c : Char) : Bool :=
  isAsciiNamePart c
    || (0x80 ≤ c.toNat && (inRanges startRanges c.toNat || inRanges continueRanges c.toNat))

/-- A non-empty name of ASCII letters, digits, underscores and dollar signs that does not begin
with a digit. -/
def isIdentifierName (name : String) : Bool :=
  match name.toList with
  | [] => false
  | c :: rest => isAsciiNameStart c && rest.all isAsciiNamePart

end ComponentLowering.Text
