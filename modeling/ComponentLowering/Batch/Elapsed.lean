/-
# Elapsed time

The text for a length of time: its largest unit with the rest as decimals.
-/

namespace ComponentLowering.Batch

/-- The digits of a number, as many as given. -/
def padded (width n : Nat) : List Char :=
  let digits := Nat.toDigits 10 n
  List.replicate (width - digits.length) '0' ++ digits

/-- The decimals of a part of a unit, without zeros at the end. -/
def decimals (width rest : Nat) : List Char :=
  let digits := ((padded width rest).reverse.dropWhile (· == '0')).reverse
  if digits.isEmpty then [] else '.' :: digits

/-- A number of nanoseconds in a unit of ten to the power of `width` nanoseconds. -/
def inUnit (width nanoseconds : Nat) (name : String) : String :=
  let unit := Nat.pow 10 width
  let whole := Nat.toDigits 10 (nanoseconds / unit)
  String.ofList (whole ++ decimals width (nanoseconds % unit)) ++ name

/-- The text for a length of time in nanoseconds. -/
def elapsedText (nanoseconds : Nat) : String :=
  if Nat.pow 10 9 ≤ nanoseconds then inUnit 9 nanoseconds "s"
  else if Nat.pow 10 6 ≤ nanoseconds then inUnit 6 nanoseconds "ms"
  else if Nat.pow 10 3 ≤ nanoseconds then inUnit 3 nanoseconds "µs"
  else inUnit 0 nanoseconds "ns"

end ComponentLowering.Batch
