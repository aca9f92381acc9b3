import ComputeMarket.Radix

/-
This file reads and writes decimal numerals.
-/

namespace ComputeMarket.Text

/-- The value of an ASCII decimal digit. -/
def digit? (character : Char) : Option Nat :=
  if '0' ≤ character ∧ character ≤ '9' then some (character.toNat - 48) else none

/-- A non-empty run of decimal digits. -/
def digits? : List Char → Option Nat
  | [] => none
  | first :: rest => (List.mapM digit? (first :: rest)).map (Radix.value 10)

/-- A run of decimal digits that may follow one plus sign. -/
def unsigned? : List Char → Option Nat
  | '+' :: rest => digits? rest
  | text => digits? text

/-- A run of decimal digits that may follow one plus or minus sign. -/
def signed? : List Char → Option Int
  | '-' :: rest => (digits? rest).map fun magnitude => -(magnitude : Int)
  | text => (unsigned? text).map Int.ofNat

/-- The decimal digits of a number, filled up with zeros on the left to at least `width`. -/
def paddedNumeral (width number : Nat) : List Char :=
  let digits := Nat.toDigits 10 number
  List.replicate (width - digits.length) '0' ++ digits

end ComputeMarket.Text
