/-
This file defines counts that stop at the largest 64-bit number, and stakes of 128 bits.
-/

namespace ComputeMarket

/-- A number of at most 64 bits whose arithmetic stops at the largest one. -/
structure Count where
  value : Nat
  value_le : value ≤ 0xffffffffffffffff
  deriving DecidableEq

namespace Count

@[ext] theorem ext {left right : Count} (same : left.value = right.value) : left = right := by
  cases left; cases right; simpa using same

/-- The nearest count. -/
def ofNat (value : Nat) : Count := ⟨min value 0xffffffffffffffff, Nat.min_le_right _ _⟩

def zero : Count := ⟨0, by decide⟩

instance : Inhabited Count := ⟨zero⟩

instance : ToString Count := ⟨fun count => toString count.value⟩

def next (count : Count) : Count := ofNat (count.value + 1)

/-- The sum, as far as counts go. -/
def add (left right : Count) : Count := ofNat (left.value + right.value)

/-- A multiple, as far as counts go. -/
def scale (factor : Nat) (count : Count) : Count := ofNat (factor * count.value)

@[simp] theorem value_zero : zero.value = 0 := rfl

@[simp] theorem value_ofNat (value : Nat) :
    (ofNat value).value = min value 0xffffffffffffffff := rfl

/-- The largest count stays where it is. -/
theorem value_next_cases (count : Count) :
    count.next.value = count.value ∨ count.next.value = count.value + 1 := by
  have bounded := count.value_le
  simp only [next, value_ofNat]; omega

end Count

/-- A node's stake, below 2 ^ 128. -/
structure Stake where
  units : Nat
  units_lt : units < 0x100000000000000000000000000000000
  deriving DecidableEq

namespace Stake

@[ext] theorem ext {left right : Stake} (same : left.units = right.units) : left = right := by
  cases left; cases right; simpa using same

def zero : Stake := ⟨0, by decide⟩

instance : Inhabited Stake := ⟨zero⟩

instance : ToString Stake := ⟨fun stake => toString stake.units⟩

def ofNat? (units : Nat) : Option Stake :=
  if fits : units < 0x100000000000000000000000000000000 then some ⟨units, fits⟩ else none

end Stake

end ComputeMarket
