/-
# Non-negative binary64 numbers

A numeric literal denotes the binary64 number nearest to the real number it spells, a tie going
to the even significand.  The arithmetic is exact: a number is `significand * 2 ^ exponent`.
-/

namespace ComponentLowering.Number

/-- A non-negative binary64 number. -/
inductive Binary64 where
  | finite (significand : Nat) (exponent : Int)
  | infinite
deriving DecidableEq, Repr, Inhabited

/-- A quotient rounded to the nearest integer, ties going to the even one. -/
def roundHalfEven (num den : Nat) : Nat :=
  let q := num / den
  let twice := 2 * (num % den)
  if twice < den then q
  else if den < twice then q + 1
  else if q % 2 = 0 then q else q + 1

/-- `base ^ exponent` as a numerator and a denominator. -/
def powerRatio (base : Nat) (exponent : Int) : Nat × Nat :=
  match exponent with
  | .ofNat n => (Nat.pow base n, 1)
  | .negSucc n => (1, Nat.pow base (n + 1))

/-- The greatest `k` with `2 ^ k ≤ num / den`, for a positive quotient. -/
def floorLog2 (num den : Nat) : Int :=
  let guess : Int := (num.log2 : Int) - (den.log2 : Int)
  let (p, q) := powerRatio 2 guess
  if p * den ≤ num * q then guess else guess - 1

namespace Binary64

/-- The least exponent of a binary64 number. -/
def minExponent : Int := -1074

/-- The greatest exponent of a binary64 number with a full significand. -/
def maxExponent : Int := 971

/-- The binary64 number nearest to a quotient. -/
def ofRatio (num den : Nat) : Binary64 :=
  if num = 0 then .finite 0 0
  else
    let exponent := max minExponent (floorLog2 num den - 52)
    let (p, q) := powerRatio 2 exponent
    let significand := roundHalfEven (num * q) (den * p)
    let (significand, exponent) :=
      if significand = Nat.pow 2 53 then (Nat.pow 2 52, exponent + 1) else (significand, exponent)
    if maxExponent < exponent then .infinite else .finite significand exponent

/-- The binary64 number nearest to a natural number. -/
def ofNat (n : Nat) : Binary64 := ofRatio n 1

/-- The binary64 number nearest to `digits * 10 ^ exponent`. -/
def ofDecimal (digits : Nat) (exponent : Int) : Binary64 :=
  if digits = 0 then .finite 0 0
  else if 400 < exponent then .infinite
  else if exponent < -400 - (digits.log2 : Int) then .finite 0 0
  else
    let (p, q) := powerRatio 10 exponent
    ofRatio (digits * p) q

/-- The binary64 number nearest to `n * base + digit`. -/
def shiftIn (base digit : Nat) : Binary64 → Binary64
  | .infinite => .infinite
  | .finite significand exponent =>
    let (p, q) := powerRatio 2 exponent
    ofRatio (significand * p * base + digit * q) q

/-- The value of a finite number as a numerator and a denominator. -/
def ratio (significand : Nat) (exponent : Int) : Nat × Nat :=
  let (p, q) := powerRatio 2 exponent
  (significand * p, q)

end Binary64

end ComponentLowering.Number
