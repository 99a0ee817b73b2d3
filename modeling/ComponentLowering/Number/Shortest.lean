/-
# Shortest decimals

The decimal with the fewest digits that reads back as a given binary64 number, and among those
the one nearest to it.  `Decimal.compact` is the spelling of a number in printed code: the
shortest of positional, exponential and hexadecimal notation.
-/
import ComponentLowering.Number.Binary64

namespace ComponentLowering.Number

/-- The decimal `digits * 10 ^ exponent`. -/
structure Decimal where
  digits : Nat
  exponent : Int
deriving DecidableEq, Repr, Inhabited

/-- Decimal digits of a number, most significant first. -/
def decimalDigits (n : Nat) : List Char := Nat.toDigits 10 n

/-- Searches upward for the least `k ≥ start` with `den ≤ num * 10 ^ k`. -/
def leastScale (num den : Nat) : Nat → Nat → Nat
  | 0, k => k
  | fuel + 1, k => if den ≤ num * Nat.pow 10 k then k else leastScale num den fuel (k + 1)

/-- The greatest `k` with `10 ^ k ≤ num / den`, for a positive quotient. -/
def floorLog10 (num den : Nat) : Int :=
  if den ≤ num then ((decimalDigits (num / den)).length : Int) - 1
  else -(leastScale num den 400 1 : Int)

/-- The nearer of the two neighbours of a quotient on the grid `10 ^ exponent` that read back as
`value`; a tie goes to the even one. -/
def nearestOnGrid (value : Binary64) (num den : Nat) (exponent : Int) : Option Decimal :=
  let (p, q) := powerRatio 10 exponent
  let scaledNum := num * q
  let scaledDen := den * p
  let low := scaledNum / scaledDen
  let best := roundHalfEven scaledNum scaledDen
  let other := if best = low then low + 1 else low
  if Binary64.ofDecimal best exponent = value then some ⟨best, exponent⟩
  else if Binary64.ofDecimal other exponent = value then some ⟨other, exponent⟩
  else none

/-- Tries grids from coarse to fine until one holds a decimal that reads back. -/
def firstGrid (value : Binary64) (num den : Nat) : Nat → Int → Decimal
  | 0, exponent => ⟨num / den, exponent⟩
  | fuel + 1, exponent =>
    match nearestOnGrid value num den exponent with
    | some d => d
    | none => firstGrid value num den fuel (exponent - 1)

/-- Drops the zeros at the end of a decimal's digits. -/
def Decimal.normalize : Nat → Decimal → Decimal
  | 0, d => d
  | fuel + 1, d =>
    if d.digits ≠ 0 ∧ d.digits % 10 = 0 then Decimal.normalize fuel ⟨d.digits / 10, d.exponent + 1⟩
    else d

/-- The shortest decimal that reads back as a number `significand * 2 ^ exponent`. -/
def shortest (significand : Nat) (exponent : Int) : Decimal :=
  if significand = 0 then ⟨0, 0⟩
  else
    let (num, den) := Binary64.ratio significand exponent
    let value := Binary64.finite significand exponent
    (firstGrid value num den 18 (floorLog10 num den)).normalize 400

/-- A given number of zeros. -/
def zeros (n : Nat) : List Char := List.replicate n '0'

/-- Positional or exponential notation of a decimal, as the language writes numbers: exponents
are used from `1e21` up and below `1e-6`. -/
def Decimal.standard (d : Decimal) : List Char :=
  let ds := decimalDigits d.digits
  let count : Int := ds.length
  let point : Int := count + d.exponent
  if count ≤ point ∧ point ≤ 21 then ds ++ zeros (point - count).toNat
  else if 0 < point ∧ point ≤ 21 then ds.take point.toNat ++ '.' :: ds.drop point.toNat
  else if -6 < point ∧ point ≤ 0 then '0' :: '.' :: zeros (-point).toNat ++ ds
  else
    let power := point - 1
    let sign := if power < 0 then '-' else '+'
    let mantissa := match ds with
      | [] => []
      | [one] => [one]
      | first :: rest => first :: '.' :: rest
    mantissa ++ 'e' :: sign :: decimalDigits power.natAbs

/-- Lower-case hexadecimal digits of a number. -/
def hexDigits (n : Nat) : List Char := Nat.toDigits 16 n

/-- Drops the sign of a positive exponent. -/
def dropPlus : List Char → List Char
  | 'e' :: '+' :: rest => 'e' :: rest
  | c :: rest => c :: dropPlus rest
  | [] => []

/-- Keeps the shorter of two spellings, the first one on a tie. -/
def shorter (a b : List Char) : List Char :=
  if b.length < a.length then b else a

/-- Writes a fraction such as `.001` as `1e-3` where that is shorter. -/
def compactFraction (cs : List Char) : List Char :=
  match cs with
  | '.' :: '0' :: rest =>
    let digits := rest.dropWhile (· == '0')
    if digits.isEmpty then cs
    else shorter cs (digits ++ 'e' :: '-' :: decimalDigits (cs.length - 1))
  | _ => cs

/-- Writes trailing zeros as an exponent where that is shorter. -/
def compactZeros (cs : List Char) : List Char :=
  let back := cs.reverse
  let count := (back.takeWhile (· == '0')).length
  if count = 0 then cs
  else shorter cs ((back.drop count).reverse ++ 'e' :: decimalDigits count)

/-- The exponent that follows the letter `e`, read as an integer. -/
def readExponent (cs : List Char) : Int :=
  let number (ds : List Char) : Nat := ds.foldl (fun n c => 10 * n + (c.toNat - '0'.toNat)) 0
  match cs with
  | '-' :: ds => -(number ds : Int)
  | ds => number ds

/-- Writes `1.2e101` as `12e100` where that is shorter. -/
def compactPoint (cs : List Char) : List Char :=
  let whole := cs.takeWhile (· != '.')
  match cs.dropWhile (· != '.') with
  | [] => cs
  | _ :: tail =>
    let fraction := tail.takeWhile (· != 'e')
    match tail.dropWhile (· != 'e') with
    | [] => cs
    | _ :: power =>
      let exponent := readExponent power - fraction.length
      let sign := if exponent < 0 then ['-'] else []
      shorter cs (whole ++ fraction ++ 'e' :: sign ++ decimalDigits exponent.natAbs)

/-- The spelling of a finite number in printed code.  Integers below one thousand stay decimal. -/
def compact (significand : Nat) (exponent : Int) : List Char :=
  let text := (shortest significand exponent).standard
  let (num, den) := Binary64.ratio significand exponent
  if num % den = 0 ∧ num / den < 1000 then text
  else
    let text := dropPlus (match text with
      | '0' :: '.' :: rest => '.' :: rest
      | cs => cs)
    let hex := '0' :: 'x' :: hexDigits (num / den)
    if num % den = 0 ∧ num / den < Nat.pow 2 128 ∧ hex.length < text.length then hex
    else
      let text := if num % den = 0 then text else compactFraction text
      compactPoint (compactZeros text)

end ComponentLowering.Number
