import ComputeMarket.Blake3
import ComputeMarket.Word

/-
This file defines keys, the identities of markets, jobs, clients, nodes and vaults, and derives
keys from lists of seeds.
-/

namespace ComputeMarket

/-- A 32-byte identity. Keys are ordered by their bytes. -/
structure Key where
  word : Word
  deriving DecidableEq, Inhabited

namespace Key

def number (key : Key) : Nat := key.word.number

def bytes (key : Key) : List UInt8 := key.word.bytes

/-- The key with the given bytes, first byte first. -/
def ofBytes (bytes : List UInt8) : Key := ⟨Word.ofBytes bytes⟩

@[ext] theorem ext {left right : Key} (same : left.number = right.number) : left = right := by
  cases left; cases right; congr; exact Word.ext same

instance : Ord Key := ⟨fun left right => compare left.number right.number⟩

/-- The eight bytes of a number, lowest first. -/
def lengthBytes (number : Nat) : List UInt8 :=
  (Radix.digits 256 8 number).reverse.map UInt8.ofNat

/-- Every seed after its length, so that no two lists of seeds give one stream. -/
def seedStream (seeds : List (List UInt8)) : List UInt8 :=
  seeds.flatMap fun seed => lengthBytes seed.length ++ seed

/-- The key that a list of seeds determines. -/
def derive (seeds : List (List UInt8)) : Key :=
  ⟨Blake3.hash (seedStream seeds)⟩

end Key

end ComputeMarket
