/-
# Names

An identifier of the language is a name that something can be bound to unless it is one of the
reserved words.
-/
import ComponentLowering.Syntax.Span
import ComponentLowering.Text.Identifier

namespace ComponentLowering.Syntax

open ComponentLowering.Text

/-- Words that are never identifiers. -/
def reservedWords : List String :=
  ["break", "case", "catch", "class", "const", "continue", "debugger", "default", "delete", "do",
    "else", "enum", "export", "extends", "false", "finally", "for", "function", "if", "import",
    "in", "instanceof", "new", "null", "return", "super", "switch", "this", "throw", "true", "try",
    "typeof", "var", "void", "while", "with"]

/-- Whether a text is an identifier that is not reserved. -/
def isBindingName (text : String) : Bool :=
  match text.toList with
  | [] => false
  | c :: rest => isIdentifierStart c && rest.all isIdentifierPart && !reservedWords.contains text

end ComponentLowering.Syntax
