/-
This file converts between numbers and their digits in a base.
Digits are listed most significant first.
-/

namespace ComputeMarket.Radix

/-- The number that the digits spell. -/
def value (base : Nat) (digits : List Nat) : Nat :=
  digits.foldl (fun number digit => number * base + digit) 0

/-- The `width` lowest digits of a number, put in front of `rest`. -/
def digitsOnto (base : Nat) : (width number : Nat) → (rest : List Nat) → List Nat
  | 0, _, rest => rest
  | width + 1, number, rest => digitsOnto base width (number / base) (number % base :: rest)

/-- The `width` lowest digits of a number. -/
def digits (base width number : Nat) : List Nat :=
  digitsOnto base width number []

/-- The digits without leading zeros, when the number has at most `width` digits. -/
def numeral (base width number : Nat) : List Nat :=
  (digits base width number).dropWhile (· == 0)

/-- How many numbers have at most `width` digits. -/
def capacity (base width : Nat) : Nat := Nat.pow base width

@[simp] theorem capacity_zero (base : Nat) : capacity base 0 = 1 := rfl

theorem capacity_succ (base width : Nat) :
    capacity base (width + 1) = capacity base width * base := rfl

@[simp] theorem value_nil (base : Nat) : value base [] = 0 := rfl

theorem digitsOnto_eq (base width number : Nat) (rest : List Nat) :
    digitsOnto base width number rest = digits base width number ++ rest := by
  induction width generalizing number rest with
  | zero => rfl
  | succ width inductionHypothesis =>
      rw [digits, digitsOnto, digitsOnto, inductionHypothesis, inductionHypothesis _ [_],
        List.append_assoc]
      rfl

@[simp] theorem digits_zero (base number : Nat) : digits base 0 number = [] := rfl

theorem digits_succ (base width number : Nat) :
    digits base (width + 1) number = digits base width (number / base) ++ [number % base] := by
  rw [digits, digitsOnto, digitsOnto_eq]

@[simp] theorem length_digits (base width number : Nat) :
    (digits base width number).length = width := by
  induction width generalizing number with
  | zero => rfl
  | succ width inductionHypothesis => simp [digits_succ, inductionHypothesis]

theorem value_append_singleton (base : Nat) (digits : List Nat) (digit : Nat) :
    value base (digits ++ [digit]) = value base digits * base + digit := by
  simp [value]

/-- The digits of a number have its value, cut to what so many digits can hold. -/
theorem value_digits (base width number : Nat) :
    value base (digits base width number) = number % capacity base width := by
  induction width generalizing number with
  | zero => simp [Nat.mod_one]
  | succ width inductionHypothesis =>
      rw [digits_succ, value_append_singleton, inductionHypothesis, capacity_succ,
        Nat.mul_comm (capacity base width), Nat.mod_mul, Nat.add_comm, Nat.mul_comm]

end ComputeMarket.Radix
