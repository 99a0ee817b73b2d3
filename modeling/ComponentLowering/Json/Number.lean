/-
# JSON numbers

Integers that fit into 64 bits are kept as they are.  All other numbers become binary64 numbers by
scaling a 64-bit significand, one rounded step for each power of ten up to `10 ^ 308`.
-/
import ComponentLowering.Json.Fault
import ComponentLowering.Number.Shortest

namespace ComponentLowering.Json

open ComponentLowering.Text ComponentLowering.Number

/-- A number of a JSON text. -/
inductive JsonNumber where
  | natural (value : Nat)
  | negative (magnitude : Nat)
  | fraction (isNegative : Bool) (magnitude : Binary64)
deriving DecidableEq, Repr, Inhabited

/-- The greatest 64-bit significand. -/
def maxSignificand : Nat := Nat.pow 2 64 - 1

/-- A decimal digit. -/
def isDigit (c : Char) : Bool := '0' ≤ c && c ≤ '9'

/-- Adds digits to a significand as long as it fits, and tells how many digits were added and how
many were left over. -/
def addDigits : Nat → Nat → List Char → Nat × Nat × Nat
  | significand, added, [] => (significand, added, 0)
  | significand, added, d :: rest =>
    let next := significand * 10 + (d.toNat - 48)
    if maxSignificand < next then (significand, added, rest.length + 1)
    else addDigits next (added + 1) rest

/-- The product of two binary64 numbers. -/
def times : Binary64 → Binary64 → Binary64
  | .finite a i, .finite b j =>
    let (n, d) := Binary64.ratio a i
    let (m, e) := Binary64.ratio b j
    Binary64.ofRatio (n * m) (d * e)
  | _, _ => .infinite

/-- The quotient of two binary64 numbers, the second of which is not zero. -/
def quotient : Binary64 → Binary64 → Binary64
  | .finite a i, .finite b j =>
    let (n, d) := Binary64.ratio a i
    let (m, e) := Binary64.ratio b j
    Binary64.ofRatio (n * e) (d * m)
  | _, _ => .infinite

/-- The binary64 number nearest to a power of ten. -/
def powerOfTen (n : Nat) : Binary64 := Binary64.ofDecimal 1 n

/-- Whether a number is zero. -/
def isZero : Binary64 → Bool
  | .finite 0 _ => true
  | _ => false

/-- Scales a number by a power of ten, if the result is finite. -/
def scaled : Nat → Binary64 → Int → Option Binary64
  | 0, f, _ => some f
  | fuel + 1, f, exponent =>
    if exponent.natAbs ≤ 308 then
      if 0 ≤ exponent then
        match times f (powerOfTen exponent.natAbs) with
        | .infinite => none
        | g => some g
      else some (quotient f (powerOfTen exponent.natAbs))
    else if isZero f then some f
    else if 0 ≤ exponent then none
    else scaled fuel (quotient f (powerOfTen 308)) (exponent + 308)

/-- The number with a significand and a power of ten. -/
def fromParts (positive : Bool) (significand : Nat) (exponent : Int) (stop : Cursor) :
    Except Fault (JsonNumber × Cursor) :=
  match scaled 8 (Binary64.ofNat significand) exponent with
  | some f => .ok (.fraction (!positive) f, stop)
  | none => .error ⟨.malformed "number out of range", stop.offset⟩

/-- The power that digits spell, and how many of them were read: reading ends behind the first digit
with which the power does not fit into 31 bits. -/
def powerFrom : Nat → Nat → List Char → Nat × Nat
  | power, read, [] => (power, read)
  | power, read, d :: rest =>
    let next := power * 10 + (d.toNat - 48)
    if Nat.pow 2 31 - 1 < next then (next, read + 1) else powerFrom next (read + 1) rest

/-- The exponent of a number, behind its letter. -/
def exponentFrom (positive : Bool) (significand : Nat) (start : Int) (c : Cursor) :
    Except Fault (JsonNumber × Cursor) :=
  let (up, c) : Bool × Cursor := match c.rest with
    | '+' :: rest => (true, ⟨rest, c.offset + 1⟩)
    | '-' :: rest => (false, ⟨rest, c.offset + 1⟩)
    | _ => (true, c)
  match c.rest with
  | [] => .error ⟨.ended "a value", c.offset⟩
  | d :: _ =>
    if isDigit d then
      let digits := c.rest.takeWhile isDigit
      let stop := c.skip digits.length
      let (power, read) := powerFrom 0 0 digits
      if Nat.pow 2 31 - 1 < power then
        if significand ≠ 0 && up then .error ⟨.malformed "number out of range", c.offset + read⟩
        else .ok (.fraction (!positive) (.finite 0 0), stop)
      else
        fromParts positive significand (if up then start + (power : Int) else start - (power : Int))
          stop
    else .error ⟨.malformed "invalid number", c.offset + 1⟩

/-- What follows the digits of a number in front of its exponent. -/
def exponentOrEnd (positive : Bool) (significand : Nat) (exponent : Int) (c : Cursor) :
    Except Fault (JsonNumber × Cursor) :=
  match c.rest with
  | 'e' :: rest | 'E' :: rest => exponentFrom positive significand exponent ⟨rest, c.offset + 1⟩
  | _ => fromParts positive significand exponent c

/-- The digits of a number behind its point. -/
def fractionFrom (positive : Bool) (significand : Nat) (start : Int) (c : Cursor) :
    Except Fault (JsonNumber × Cursor) :=
  let digits := c.rest.takeWhile isDigit
  let stop := c.skip (c.rest.takeWhile isDigit).length
  match c.rest, digits with
  | [], _ => .error ⟨.ended "a value", c.offset⟩
  | _, [] => .error ⟨.malformed "invalid number", c.offset + 1⟩
  | _, _ =>
    let (significand, added, _) := addDigits significand 0 digits
    exponentOrEnd positive significand (start - (added : Int)) stop

/-- What follows the digits of a number in front of its point. -/
def numberTail (positive : Bool) (significand dropped : Nat) (c : Cursor) :
    Except Fault (JsonNumber × Cursor) :=
  match c.rest with
  | '.' :: rest => fractionFrom positive significand dropped ⟨rest, c.offset + 1⟩
  | 'e' :: rest | 'E' :: rest => exponentFrom positive significand dropped ⟨rest, c.offset + 1⟩
  | _ =>
    if dropped ≠ 0 then fromParts positive significand dropped c
    else if positive then .ok (.natural significand, c)
    else if significand = 0 || Nat.pow 2 63 < significand then
      .ok (.fraction true (Binary64.ofNat significand), c)
    else .ok (.negative significand, c)

/-- A number behind its sign. -/
def numberFrom (positive : Bool) (c : Cursor) : Except Fault (JsonNumber × Cursor) :=
  match c.rest with
  | [] => .error ⟨.ended "a value", c.offset⟩
  | '0' :: rest =>
    if (rest.head?.map isDigit).getD false then .error ⟨.malformed "invalid number", c.offset + 2⟩
    else numberTail positive 0 0 ⟨rest, c.offset + 1⟩
  | d :: _ =>
    if isDigit d then
      let (significand, _, dropped) := addDigits 0 0 (c.rest.takeWhile isDigit)
      numberTail positive significand dropped (c.skip (c.rest.takeWhile isDigit).length)
    else .error ⟨.malformed "invalid number", c.offset + 1⟩

/-- The spelling of a binary64 number that shows it to be no integer. -/
def fractionText (value : Binary64) : List Char :=
  match value with
  | .infinite => "inf".toList
  | .finite significand exponent =>
    if significand = 0 then "0.0".toList
    else
      let d := shortest significand exponent
      let digits := decimalDigits d.digits
      let point : Int := digits.length + d.exponent
      let power := point - 1
      let powerDigits := decimalDigits power.natAbs
      let powerText := (if power < 0 then '-' else '+') :: powerDigits
      if 0 ≤ d.exponent ∧ point ≤ 16 then digits ++ zeros d.exponent.natAbs ++ ['.', '0']
      else if 0 < point ∧ point ≤ 16 then
        digits.take point.natAbs ++ '.' :: digits.drop point.natAbs
      else if -5 < point ∧ point ≤ 0 then '0' :: '.' :: zeros point.natAbs ++ digits
      else
        match digits with
        | [d] => d :: 'e' :: powerText
        | d :: rest => d :: '.' :: rest ++ 'e' :: powerText
        | [] => []

/-- A number in the words of a report. -/
def JsonNumber.describe : JsonNumber → String
  | natural n => "integer `" ++ String.ofList (decimalDigits n) ++ "`"
  | negative n => "integer `-" ++ String.ofList (decimalDigits n) ++ "`"
  | fraction isNegative value =>
    "floating point `" ++ (if isNegative then "-" else "") ++ String.ofList (fractionText value)
      ++ "`"

end ComponentLowering.Json
