import ComputeMarket.Radix

/-
This file decides which numbers are in the range of 64-bit floats. A number is read as a
significand of at most 64 bits and a power of ten; both are rounded before they are multiplied.
-/

namespace ComputeMarket.Json

/-- Magnitudes from here on round to infinity as 64-bit floats. -/
def floatLimit : Nat := 1 <<< 1024 - 1 <<< 970

/-- The nearest number with 53 significant bits; of two that are as near, the even one. -/
def roundToFloat (number : Nat) : Nat :=
  let unit := 1 <<< (number.log2 - 52)
  let below := number / unit
  let rest := number % unit
  if unit < 2 * rest ∨ (unit = 2 * rest ∧ below % 2 = 1) then (below + 1) * unit else below * unit

/-- Whether the rounded product of a significand and a power of ten is finite. -/
def isFinite (significand : Nat) (exponent : Int) : Bool :=
  significand == 0 || exponent < 0 ||
    (exponent ≤ 308 &&
      roundToFloat significand * roundToFloat (Radix.capacity 10 exponent.toNat) < floatLimit)

/-- Appends digits to a number up to the first that would take it to 65 bits. Gives the number
and the digits left over. -/
def appendDigits (number : Nat) : List Nat → Nat × List Nat
  | [] => (number, [])
  | digit :: rest =>
    if number * 10 + digit < 0x10000000000000000 then appendDigits (number * 10 + digit) rest
    else (number, digit :: rest)

/-- Whether a decimal numeral is in range. Digits left over before the point count as zeros, and
digits after the point are appended as far as they fit, even then. -/
def isDecimalFinite (whole fraction : List Nat) (exponent : Int) : Bool :=
  let (leading, skipped) := appendDigits 0 whole
  let (significand, rest) := appendDigits leading fraction
  isFinite significand (exponent + skipped.length - (fraction.length - rest.length : Nat))

/-- Whether an integer is in range after at most `room` of its last digits have been skipped.
The exponent counts those that were. -/
def isSkippedFinite : (room magnitude exponent : Nat) → Bool
  | 0, magnitude, exponent => magnitude < 0x10000000000000000 && isFinite magnitude exponent
  | room + 1, magnitude, exponent =>
    if magnitude < 0x10000000000000000 then isFinite magnitude exponent
    else isSkippedFinite room (magnitude / 10) (exponent + 1)

/-- Whether an integer is in range. Those of 64 bits are no floats, and always are. -/
def isIntegerFinite (magnitude : Nat) : Bool :=
  magnitude < 0x10000000000000000 || isSkippedFinite 308 magnitude 0

end ComputeMarket.Json
