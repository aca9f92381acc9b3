import ComputeMarket.Radix
import Mathlib.Data.List.TakeWhile
import Mathlib.Data.Nat.Digits.Lemmas

/-
This file proves that numerals spell their numbers, without a leading zero and in as few digits as
the number needs.
-/

namespace ComputeMarket.Radix

variable {base : Nat}

theorem value_zeros_append (base zeros : Nat) (digits : List Nat) :
    value base (List.replicate zeros 0 ++ digits) = value base digits := by
  induction zeros with
  | zero => rfl
  | succ zeros inductionHypothesis => simpa [value, List.replicate_succ] using inductionHypothesis

/-- The value is that of the digits from the lowest on. -/
theorem value_eq_ofDigits (base : Nat) (digits : List Nat) :
    value base digits = Nat.ofDigits base digits.reverse := by
  induction digits using List.reverseRecOn with
  | nil => rfl
  | append_singleton rest digit inductionHypothesis =>
      rw [value_append_singleton, inductionHypothesis, List.reverse_append, List.reverse_singleton,
        List.singleton_append, Nat.ofDigits_cons]
      simp [Nat.mul_comm, Nat.add_comm]

theorem lt_of_mem_digits (positive : 0 < base) {width number digit : Nat}
    (member : digit ∈ digits base width number) : digit < base := by
  induction width generalizing number with
  | zero => simp at member
  | succ width inductionHypothesis =>
      rw [digits_succ] at member
      rcases List.mem_append.1 member with before | last
      · exact inductionHypothesis before
      · rw [List.mem_singleton.1 last]
        exact Nat.mod_lt _ positive

theorem digits_zero_number (base width : Nat) : digits base width 0 = List.replicate width 0 := by
  induction width with
  | zero => rfl
  | succ width inductionHypothesis =>
      rw [digits_succ, Nat.zero_div, inductionHypothesis, Nat.zero_mod, List.replicate_succ']

/-- A numeral that is wide enough has the digits of its number, whatever the width. -/
theorem numeral_eq (large : 1 < base) {width number : Nat} (fits : number < base ^ width) :
    numeral base width number = (Nat.digits base number).reverse := by
  unfold numeral
  induction width generalizing number with
  | zero =>
      have nothing : number = 0 := by simpa using fits
      simp [nothing]
  | succ width inductionHypothesis =>
      by_cases nothing : number = 0
      · subst nothing
        simp [digits_zero_number]
      · have before : number / base < base ^ width := by
          rw [Nat.div_lt_iff_lt_mul (by omega)]
          rwa [Nat.pow_succ] at fits
        rw [digits_succ, List.dropWhile_append, inductionHypothesis before,
          Nat.digits_def' large (Nat.pos_of_ne_zero nothing), List.reverse_cons]
        by_cases single : number / base = 0
        · have small : number % base = number := by
            rw [Nat.div_eq_zero_iff] at single
            exact Nat.mod_eq_of_lt (by omega)
          simp [single, small, nothing]
        · have more : Nat.digits base (number / base) ≠ [] := by
            simpa [Nat.digits_ne_nil_iff_ne_zero] using single
          simp [more]

/-- The shortest digits of a number have its value. -/
theorem value_numeral (large : 1 < base) {width number : Nat} (fits : number < base ^ width) :
    value base (numeral base width number) = number := by
  rw [numeral_eq large fits, value_eq_ofDigits, List.reverse_reverse, Nat.ofDigits_digits]

/-- Every digit of the shortest form is below the base. -/
theorem lt_of_mem_numeral (large : 1 < base) {width number digit : Nat}
    (fits : number < base ^ width) (member : digit ∈ numeral base width number) : digit < base := by
  rw [numeral_eq large fits, List.mem_reverse] at member
  exact Nat.digits_lt_base large member

/-- A number is less than the numerals of the length of its own can spell. -/
theorem lt_pow_length_numeral (large : 1 < base) {width number : Nat} (fits : number < base ^ width) :
    number < base ^ (numeral base width number).length := by
  rw [numeral_eq large fits, List.length_reverse]
  exact Nat.lt_base_pow_length_digits large

/-- In front of a numeral, the leading zeros are those that were put there. -/
theorem takeWhile_zeros_append (base width number zeros : Nat) :
    (List.replicate zeros 0 ++ numeral base width number).takeWhile (· == 0) =
      List.replicate zeros 0 := by
  have none : (numeral base width number).takeWhile (· == 0) = [] :=
    List.takeWhile_eq_nil_iff.2 (List.dropWhile_get_zero_not _ (digits base width number))
  rw [List.takeWhile_append_of_pos (by simp), none, List.append_nil]

/-- Digits are their leading zeros and what is left without them. -/
theorem zeros_append_dropWhile (digits : List Nat) :
    List.replicate (digits.takeWhile (· == 0)).length 0 ++ digits.dropWhile (· == 0) = digits := by
  have zeros : digits.takeWhile (· == 0) =
      List.replicate (digits.takeWhile (· == 0)).length 0 := by
    refine List.eq_replicate_iff.2 ⟨rfl, ?_⟩
    intro digit member
    simpa using List.mem_takeWhile_imp member
  rw [← zeros]
  exact List.takeWhile_append_dropWhile

/-- The digits of a fixed width are zeros and the numeral. -/
theorem zeros_append_numeral (base width number : Nat) :
    List.replicate ((digits base width number).takeWhile (· == 0)).length 0 ++
      numeral base width number = digits base width number :=
  zeros_append_dropWhile _

section Digits

variable {digits : List Nat} (large : 1 < base) (small : ∀ digit ∈ digits, digit < base)

include large small

theorem value_lt : value base digits < base ^ digits.length := by
  rw [value_eq_ofDigits, ← List.length_reverse]
  exact Nat.ofDigits_lt_base_pow_length large fun digit member =>
    small digit (List.mem_reverse.1 member)

/-- Digits are those of the number that they spell, in their own width. -/
theorem digits_value : Radix.digits base digits.length (value base digits) = digits := by
  induction digits using List.reverseRecOn with
  | nil => rfl
  | append_singleton rest digit inductionHypothesis =>
      rw [List.forall_mem_append] at small
      have last : digit < base := small.2 digit (List.mem_singleton_self digit)
      rw [List.length_append, List.length_singleton, digits_succ, value_append_singleton,
        Nat.add_comm (_ * base), Nat.add_mul_div_right _ _ (by omega), Nat.div_eq_of_lt last,
        Nat.zero_add, Nat.add_mul_mod_self_right, Nat.mod_eq_of_lt last,
        inductionHypothesis small.1]

/-- The numeral of the number that digits spell is the digits without leading zeros. -/
theorem numeral_value {width : Nat} (fits : value base digits < base ^ width) :
    numeral base width (value base digits) = digits.dropWhile (· == 0) := by
  have spelled : value base digits = value base (digits.dropWhile (· == 0)) := by
    have same := value_zeros_append base (digits.takeWhile (· == 0)).length
      (digits.dropWhile (· == 0))
    rwa [zeros_append_dropWhile] at same
  rw [numeral_eq large fits, spelled, value_eq_ofDigits, Nat.digits_ofDigits base large,
    List.reverse_reverse]
  · intro digit member
    exact small digit (List.dropWhile_subset _ (List.mem_reverse.1 member))
  · intro nonempty
    have first := List.head_dropWhile_not (· == 0) (List.reverse_ne_nil_iff.1 nonempty)
    rw [List.getLast_reverse]
    simpa using first

end Digits

end ComputeMarket.Radix
