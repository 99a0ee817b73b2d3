/-
# Tokens

The lexical elements of a module.  Words are not yet divided into keywords and names, since most
keywords of the language are keywords in some places only.
-/
import ComponentLowering.Syntax.Literal
import ComponentLowering.Syntax.Name

namespace ComponentLowering.Syntax

open ComponentLowering.Text ComponentLowering.Number

/-- The content of a token.  Text that is no token is `invalid`, which no grammar rule takes. -/
inductive Lexeme where
  | word (name : String) (escaped : Bool)
  | privateName (name : String)
  | mark (text : String)
  | number (value : Binary64)
  | bigint (digits : String)
  | string (value : StringValue)
  | template (chunk : TemplateChunk) (closed : Bool)
  | endOfText
  | invalid
deriving DecidableEq, Repr, Inhabited

/-- A token with its place.  The comments in front of it may note that the call or the function
behind them is pure. -/
structure Token where
  lexeme : Lexeme
  span : Span
  afterNewline : Bool
  notesPureCall : Bool := false
  notesPureFunction : Bool := false
deriving Repr, Inhabited

namespace Token

/-- Whether a token is the given word. -/
def isWord (t : Token) (name : String) : Bool :=
  match t.lexeme with
  | .word n _ => n == name
  | _ => false

/-- Whether a token is a word that is written with escapes. -/
def isEscaped (t : Token) : Bool :=
  match t.lexeme with
  | .word _ escaped => escaped
  | _ => false

/-- Whether a token is the given punctuation mark. -/
def isMark (t : Token) (text : String) : Bool :=
  match t.lexeme with
  | .mark m => m == text
  | _ => false

/-- Whether a token is one of the given words. -/
def isWordOf (t : Token) (names : List String) : Bool :=
  match t.lexeme with
  | .word n _ => names.contains n
  | _ => false

/-- Whether a token is one of the given punctuation marks. -/
def isMarkOf (t : Token) (texts : List String) : Bool :=
  match t.lexeme with
  | .mark m => texts.contains m
  | _ => false

end Token

/-- Words that are identifiers in some places and keywords in others. -/
def contextualWords : List String :=
  ["abstract", "accessor", "any", "as", "assert", "asserts", "async", "await", "bigint", "boolean",
    "constructor", "declare", "defer", "from", "get", "global", "implements", "infer", "interface",
    "intrinsic", "is", "keyof", "let", "meta", "module", "namespace", "never", "number", "object",
    "of", "out", "override", "package", "private", "protected", "public", "readonly", "require",
    "satisfies", "set", "source", "static", "string", "symbol", "target", "type", "undefined",
    "unique", "unknown", "using", "yield"]

/-- Whether a word is a keyword anywhere. -/
def isKeyword (word : String) : Bool :=
  reservedWords.contains word || contextualWords.contains word

/-- Punctuation marks, longer ones before their beginnings. -/
def marks : List String :=
  [">>>=", "...", "===", "!==", "**=", "<<=", ">>=", ">>>", "&&=", "||=", "??=", "=>", "==", "!=",
    "<=", ">=", "&&", "||", "??", "?.", "++", "--", "+=", "-=", "*=", "/=", "%=", "&=", "|=", "^=",
    "<<", ">>", "**", "\x7b", "\x7d", "(", ")", "[", "]", ";", ",", "<", ">", "+", "-", "*", "/",
    "%", "&", "|", "^", "!", "~", "?", ":", "=", ".", "@"]

end ComponentLowering.Syntax
