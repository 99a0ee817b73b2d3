/-
# String values of the language

A string of the language is a sequence of UTF-16 code units, so it may hold surrogates without a
partner, which Unicode text cannot.  The value is stored as Unicode text: when it holds a lone
surrogate it is marked, and in a marked value every lone surrogate and every replacement
character stands as U+FFFD followed by the four hexadecimal digits of its code unit.
-/

namespace ComponentLowering.Text

/-- The stored form of a string of the language. -/
structure StringValue where
  text : String
  hasLoneSurrogates : Bool := false
deriving DecidableEq, Repr, Inhabited

/-- The replacement character U+FFFD. -/
def replacement : Char := '\uFFFD'

/-- A digit of base sixteen, lower case. -/
def hexDigit (n : Nat) : Char := Nat.digitChar (n % 16)

/-- Four lower-case hexadecimal digits. -/
def fourHexDigits (n : Nat) : List Char :=
  [hexDigit (n / 4096), hexDigit (n / 256), hexDigit (n / 16), hexDigit n]

/-- The value of a hexadecimal digit. -/
def hexValue? (c : Char) : Option Nat :=
  if '0' ≤ c ∧ c ≤ '9' then some (c.toNat - 48)
  else if 'a' ≤ c ∧ c ≤ 'f' then some (c.toNat - 87)
  else if 'A' ≤ c ∧ c ≤ 'F' then some (c.toNat - 55)
  else none

/-- One element of a string: a Unicode character or a surrogate without a partner. -/
inductive StringElement where
  | char (c : Char)
  | lone (surrogate : Nat)
deriving DecidableEq, Repr, Inhabited

/-- A leading surrogate, the first half of a pair. -/
def isLeadSurrogate (n : Nat) : Bool := 0xD800 ≤ n && n ≤ 0xDBFF

/-- A trailing surrogate, the second half of a pair. -/
def isTrailSurrogate (n : Nat) : Bool := 0xDC00 ≤ n && n ≤ 0xDFFF

/-- The character that a surrogate pair stands for. -/
def joinSurrogates (lead trail : Nat) : Char :=
  Char.ofNat (0x10000 + (lead - 0xD800) * 0x400 + (trail - 0xDC00))

namespace StringElement

/-- The element that a code point below 0x110000 stands for. -/
def ofNat (n : Nat) : StringElement :=
  if isLeadSurrogate n || isTrailSurrogate n then .lone n else .char (Char.ofNat n)

/-- Whether the element is a lone surrogate. -/
def isLone : StringElement → Bool
  | .char _ => false
  | .lone _ => true

/-- The UTF-16 code units of an element. -/
def codeUnits : StringElement → List Nat
  | .lone n => [n]
  | .char c =>
    if c.toNat < 0x10000 then [c.toNat]
    else [0xD800 + (c.toNat - 0x10000) / 0x400, 0xDC00 + (c.toNat - 0x10000) % 0x400]

/-- The stored form of an element inside a marked value. -/
def stored : StringElement → List Char
  | .lone n => replacement :: fourHexDigits n
  | .char c => if c = replacement then replacement :: fourHexDigits 0xFFFD else [c]

end StringElement

/-- Reads four hexadecimal digits. -/
def fourHexValue? : List Char → Option (Nat × List Char)
  | a :: b :: c :: d :: rest => do
    let a ← hexValue? a
    let b ← hexValue? b
    let c ← hexValue? c
    let d ← hexValue? d
    return (a * 4096 + b * 256 + c * 16 + d, rest)
  | _ => none

namespace StringValue

/-- The value of a text without lone surrogates. -/
def ofString (s : String) : StringValue := ⟨s, false⟩

/-- The stored form of a sequence of elements. -/
def ofUnits (units : List StringElement) : StringValue :=
  if units.any StringElement.isLone then ⟨String.ofList (units.flatMap StringElement.stored), true⟩
  else ⟨String.ofList (units.flatMap fun u => match u with
    | .char c => [c]
    | .lone _ => []), false⟩

/-- The elements of a marked text. -/
def unitsOfMarked : List Char → List StringElement
  | c :: a :: b :: x :: y :: rest =>
    if c = replacement then
      match fourHexValue? [a, b, x, y] with
      | some (n, _) => StringElement.ofNat n :: unitsOfMarked rest
      | none => .char c :: unitsOfMarked (a :: b :: x :: y :: rest)
    else .char c :: unitsOfMarked (a :: b :: x :: y :: rest)
  | c :: rest => .char c :: unitsOfMarked rest
  | [] => []

/-- The elements of a string value. -/
def units (v : StringValue) : List StringElement :=
  if v.hasLoneSurrogates then unitsOfMarked v.text.toList else v.text.toList.map .char

/-- The UTF-16 code units of a string value. -/
def codeUnits (v : StringValue) : List Nat :=
  v.units.flatMap StringElement.codeUnits

end StringValue

end ComponentLowering.Text
