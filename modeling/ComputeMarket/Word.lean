import ComputeMarket.Radix

/-
This file defines 32-byte words, the common form of identities and content digests.
-/

namespace ComputeMarket

/-- Thirty-two bytes, held as the number that they spell in base 256.
The order of the numbers is the order of the bytes, first byte first. -/
structure Word where
  number : Nat
  number_lt : number < Radix.capacity 256 32
  deriving DecidableEq

namespace Word

@[ext] theorem ext {left right : Word} (same : left.number = right.number) : left = right := by
  cases left; cases right; simpa using same

def zero : Word := ⟨0, by decide⟩

instance : Inhabited Word := ⟨zero⟩

/-- The word that the lowest 32 base-256 digits of a number spell. -/
def ofNumber (number : Nat) : Word :=
  ⟨number % Radix.capacity 256 32, Nat.mod_lt _ (by decide)⟩

/-- The bytes as numbers, first byte first. -/
def octets (word : Word) : List Nat :=
  Radix.digits 256 32 word.number

def bytes (word : Word) : List UInt8 :=
  word.octets.map UInt8.ofNat

/-- The word with the given bytes, first byte first. -/
def ofBytes (bytes : List UInt8) : Word :=
  ofNumber (Radix.value 256 (bytes.map UInt8.toNat))

@[simp] theorem length_octets (word : Word) : word.octets.length = 32 := by
  simp [octets]

/-- The octets of a word have its number as their value. -/
theorem value_octets (word : Word) : Radix.value 256 word.octets = word.number := by
  rw [octets, Radix.value_digits, Nat.mod_eq_of_lt word.number_lt]

@[simp] theorem ofNumber_number (word : Word) : ofNumber word.number = word :=
  Word.ext (Nat.mod_eq_of_lt word.number_lt)

end Word

end ComputeMarket
