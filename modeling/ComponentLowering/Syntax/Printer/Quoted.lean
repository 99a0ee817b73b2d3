/-
# Written literals

How strings and numbers are written.  A string stands between double quotes; the escapes are the
shortest spellings that every reader takes for the same code units, and a closing script tag is
broken up so that the text can stand inside a page.
-/
import ComponentLowering.Text.StringValue
import ComponentLowering.Number.Shortest

namespace ComponentLowering.Syntax

open ComponentLowering.Text ComponentLowering.Number

/-- Whether the text of some elements starts with a word, in any case of its letters. -/
def startsWithAnyCase : List Char → List StringElement → Bool
  | [], _ => true
  | w :: word, .char c :: rest => c.toLower == w && startsWithAnyCase word rest
  | _ :: _, _ => false

/-- Whether a string goes on with a digit. -/
def startsWithDigit : List StringElement → Bool
  | .char c :: _ => '0' ≤ c && c ≤ '9'
  | _ => false

/-- The spelling of one element of a string in front of the others. -/
def quotedElement (e : StringElement) (rest : List StringElement) : List Char :=
  match e with
  | .lone n => '\\' :: 'u' :: fourHexDigits n
  | .char c =>
    if c = '"' then ['\\', '"']
    else if c = '\\' then ['\\', '\\']
    else if c = '\n' then ['\\', 'n']
    else if c = '\r' then ['\\', 'r']
    else if c = '\x08' then ['\\', 'b']
    else if c = '\x0b' then ['\\', 'v']
    else if c = '\x0c' then ['\\', 'f']
    else if c = '\x00' then
      if startsWithDigit rest then ['\\', 'x', '0', '0'] else ['\\', '0']
    else if c = '\x07' then ['\\', 'x', '0', '7']
    else if c = '\x1b' then ['\\', 'x', '1', 'B']
    else if c = '\u00a0' then ['\\', 'x', 'A', '0']
    else if c = '\u2028' then ['\\', 'u', '2', '0', '2', '8']
    else if c = '\u2029' then ['\\', 'u', '2', '0', '2', '9']
    else if c = '<' && startsWithAnyCase "/script".toList rest then ['<', '\\']
    else [c]

/-- The spelling of the elements of a string. -/
def quotedElements : List StringElement → List Char
  | [] => []
  | e :: rest => quotedElement e rest ++ quotedElements rest

/-- A string between double quotes. -/
def quoted (value : StringValue) : List Char :=
  '"' :: quotedElements value.units ++ ['"']

/-- The spelling of a number. -/
def numberSpelling : Binary64 → List Char
  | .infinite => "Infinity".toList
  | .finite significand exponent => compact significand exponent

/-- A number whose spelling holds only digits would run together with a dot behind it. -/
def meetsDot (spelling : List Char) : Bool :=
  spelling.all fun c => '0' ≤ c && c ≤ '9'

end ComponentLowering.Syntax
