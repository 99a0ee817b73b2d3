/-
# Spelling names and strings in code

How a name or a string is written into code that the compiler makes up.  Plain names stand as they
are, all others as quoted strings.
-/
import ComponentLowering.Text.Identifier
import ComponentLowering.Text.StringValue

namespace ComponentLowering.Code

open ComponentLowering.Text

/-- The spelling of one character of a quoted string. -/
def quotedChar (c : Char) : List Char :=
  if c = '"' then ['\\', '"']
  else if c = '\\' then ['\\', '\\']
  else if c = '\x08' then ['\\', 'b']
  else if c = '\x0c' then ['\\', 'f']
  else if c = '\n' then ['\\', 'n']
  else if c = '\r' then ['\\', 'r']
  else if c = '\t' then ['\\', 't']
  else if c.toNat < 0x20 then '\\' :: 'u' :: fourHexDigits c.toNat
  else [c]

/-- The spelling of a string between double quotes, as characters. -/
def quotedChars (cs : List Char) : List Char :=
  '"' :: cs.flatMap quotedChar ++ ['"']

/-- The spelling of a string between double quotes. -/
def quote (value : String) : String := String.ofList (quotedChars value.toList)

/-- The key of an object member: a plain name, or a quoted string. -/
def propertyKey (name : String) : String :=
  if isIdentifierName name then name else quote name

/-- The key of a class member: a plain name, or a quoted string in brackets. -/
def memberKey (name : String) : String :=
  if isIdentifierName name then name else "[" ++ quote name ++ "]"

/-- The access to a member of an object. -/
def memberAccess (object name : String) : String :=
  if isIdentifierName name then object ++ "." ++ name else object ++ "[" ++ quote name ++ "]"

end ComponentLowering.Code
