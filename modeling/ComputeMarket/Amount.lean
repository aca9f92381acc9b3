/-
This file defines amounts of the market's token, counted in base units.
-/

namespace ComputeMarket

/-- An amount in base units, below 2 ^ 64. One whole token is 10 ^ 6 base units. -/
structure Amount where
  base : Nat
  base_lt : base < 0x10000000000000000
  deriving DecidableEq

namespace Amount

@[ext] theorem ext {left right : Amount} (same : left.base = right.base) : left = right := by
  cases left; cases right; simpa using same

def zero : Amount := ⟨0, by decide⟩

/-- The largest amount that 64 bits can hold. -/
def largest : Amount := ⟨0xffffffffffffffff, by decide⟩

instance : Inhabited Amount := ⟨zero⟩

instance : LT Amount := ⟨fun left right => left.base < right.base⟩

instance : LE Amount := ⟨fun left right => left.base ≤ right.base⟩

instance (left right : Amount) : Decidable (left < right) := Nat.decLt left.base right.base

instance (left right : Amount) : Decidable (left ≤ right) := Nat.decLe left.base right.base

instance : Ord Amount := ⟨fun left right => compare left.base right.base⟩

/-- The amount of so many base units, if it fits. -/
def ofBase? (base : Nat) : Option Amount :=
  if fits : base < 0x10000000000000000 then some ⟨base, fits⟩ else none

/-- The nearest amount, when a number exceeds them all the largest. -/
def saturate (base : Nat) : Amount :=
  ⟨min base 0xffffffffffffffff, by omega⟩

def isZero (amount : Amount) : Bool := amount.base == 0

/-- The sum of two amounts, if it fits. -/
def add? (left right : Amount) : Option Amount := ofBase? (left.base + right.base)

/-- The rest of an amount without another, if it is not larger. -/
def sub? (left right : Amount) : Option Amount :=
  if right.base ≤ left.base then some ⟨left.base - right.base, by have := left.base_lt; omega⟩
  else none

/-- An amount of whole tokens. -/
def ofTokens (tokens : Nat) : Amount := saturate (tokens * 1000000)

/-- The whole tokens in an amount. -/
def tokens (amount : Amount) : Nat := amount.base / 1000000

/-- The sum of amounts, taken from the left; past the largest amount it stays there. -/
def sum (amounts : List Amount) : Amount :=
  amounts.foldl (fun total amount => saturate (total.base + amount.base)) zero

@[simp] theorem base_zero : zero.base = 0 := rfl

@[simp] theorem isZero_iff (amount : Amount) : amount.isZero = true ↔ amount = zero := by
  rw [isZero, beq_iff_eq, Amount.ext_iff, base_zero]

theorem le_iff (left right : Amount) : left ≤ right ↔ left.base ≤ right.base := Iff.rfl

theorem ofBase?_eq_some {base : Nat} {amount : Amount} :
    ofBase? base = some amount ↔ amount.base = base := by
  unfold ofBase?
  split
  · rename_i fits
    rw [Option.some.injEq, Amount.ext_iff]
    exact eq_comm
  · have := amount.base_lt
    simp only [reduceCtorEq, false_iff]
    omega

/-- A sum is exact. -/
theorem add?_eq_some {left right total : Amount} :
    left.add? right = some total ↔ total.base = left.base + right.base :=
  ofBase?_eq_some

theorem sub?_eq_some {left right rest : Amount} :
    left.sub? right = some rest ↔ rest.base + right.base = left.base := by
  unfold sub?
  split
  · rw [Option.some.injEq, Amount.ext_iff]
    constructor <;> intro same <;> simp at * <;> omega
  · simp only [reduceCtorEq, false_iff]
    omega

end Amount

end ComputeMarket
