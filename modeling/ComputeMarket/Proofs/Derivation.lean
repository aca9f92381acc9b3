import ComputeMarket.Market
import ComputeMarket.Proofs.Radix
import Mathlib.Data.Set.Function

/-
This file proves that a stream of seeds determines the seeds, so that keys derived from different
seeds differ unless the hash function collides on the two streams.
-/

namespace ComputeMarket

/-- Numbers below 256 are kept by the bytes that they become. -/
theorem toNat_bytes {octets : List Nat} (small : ∀ octet ∈ octets, octet < 256) :
    (octets.map UInt8.ofNat).map UInt8.toNat = octets := by
  rw [List.map_map]
  refine (List.map_congr_left fun octet member => ?_).trans (List.map_id _)
  exact UInt8.toNat_ofNat_of_lt (small octet member)

namespace Word

theorem lt_of_mem_octets (word : Word) : ∀ octet ∈ word.octets, octet < 256 :=
  fun _ => Radix.lt_of_mem_digits (by decide)

@[simp] theorem length_bytes (word : Word) : word.bytes.length = 32 := by
  rw [bytes, List.length_map, length_octets]

theorem bytes_injective : Function.Injective bytes := by
  intro left right same
  have octets : left.octets = right.octets := by
    rw [← toNat_bytes left.lt_of_mem_octets, ← toNat_bytes right.lt_of_mem_octets]
    exact congrArg (List.map UInt8.toNat) same
  apply Word.ext
  rw [← value_octets left, ← value_octets right, octets]

end Word

namespace Key

@[simp] theorem length_bytes (key : Key) : key.bytes.length = 32 := key.word.length_bytes

theorem bytes_injective : Function.Injective bytes := by
  intro left right same
  exact congrArg Key.mk (Word.bytes_injective same)

@[simp] theorem length_lengthBytes (number : Nat) : (lengthBytes number).length = 8 := by
  rw [lengthBytes, List.length_map, List.length_reverse, Radix.length_digits]

/-- Eight bytes hold every number below 2 ^ 64. -/
theorem lengthBytes_inj {left right : Nat} (leftFits : left < 2 ^ 64) (rightFits : right < 2 ^ 64)
    (same : lengthBytes left = lengthBytes right) : left = right := by
  have small (number : Nat) : ∀ octet ∈ (Radix.digits 256 8 number).reverse, octet < 256 :=
    fun octet member => Radix.lt_of_mem_digits (by decide) (List.mem_reverse.1 member)
  have digits : Radix.digits 256 8 left = Radix.digits 256 8 right := by
    apply List.reverse_injective
    rw [← toNat_bytes (small left), ← toNat_bytes (small right)]
    exact congrArg (List.map UInt8.toNat) same
  have value {number : Nat} (fits : number < 2 ^ 64) :
      Radix.value 256 (Radix.digits 256 8 number) = number := by
    rw [Radix.value_digits]
    exact Nat.mod_eq_of_lt fits
  rw [← value leftFits, ← value rightFits, digits]

/-- The lengths of the seeds fit in the eight bytes in front of them. -/
def Short (seeds : List (List UInt8)) : Prop := ∀ seed ∈ seeds, seed.length < 2 ^ 64

variable {left right : List (List UInt8)}

theorem short_cons {seed : List UInt8} {seeds : List (List UInt8)} :
    Short (seed :: seeds) ↔ seed.length < 2 ^ 64 ∧ Short seeds :=
  List.forall_mem_cons

/-- The stream of seeds begins with the length of the first seed and the seed itself. -/
theorem seedStream_cons (seed : List UInt8) (seeds : List (List UInt8)) :
    seedStream (seed :: seeds) = lengthBytes seed.length ++ (seed ++ seedStream seeds) := by
  rw [seedStream, List.flatMap_cons, List.append_assoc]
  rfl

/-- The stream of no seeds is the only empty one. -/
theorem seedStream_cons_ne_nil (seed : List UInt8) (seeds : List (List UInt8)) :
    seedStream (seed :: seeds) ≠ [] := by
  intro empty
  have length := congrArg List.length empty
  rw [seedStream_cons, List.length_append, length_lengthBytes, List.length_nil] at length
  omega

/-- A stream is cut into its seeds in one way only: the length in front of a seed tells where the
seed ends, whatever its bytes look like. -/
theorem seedStream_inj (leftShort : Short left) (rightShort : Short right)
    (same : seedStream left = seedStream right) : left = right := by
  induction left generalizing right with
  | nil =>
      cases right with
      | nil => rfl
      | cons seed seeds => exact absurd same.symm (seedStream_cons_ne_nil seed seeds)
  | cons first rest inductionHypothesis =>
      cases right with
      | nil => exact absurd same (seedStream_cons_ne_nil first rest)
      | cons seed seeds =>
          rw [short_cons] at leftShort rightShort
          rw [seedStream_cons, seedStream_cons] at same
          obtain ⟨lengths, after⟩ := List.append_inj same (by simp)
          have length := lengthBytes_inj leftShort.1 rightShort.1 lengths
          obtain ⟨rfl, others⟩ := List.append_inj after length
          rw [inductionHypothesis leftShort.2 rightShort.2 others]

/-- Derived keys are the same exactly if their streams have one hash. -/
theorem derive_eq_derive_iff :
    derive left = derive right ↔ Blake3.hash (seedStream left) = Blake3.hash (seedStream right) :=
  Key.mk.injEq .. ▸ Iff.rfl

/-- Without a collision on their streams, seeds and derived keys determine each other. -/
theorem derive_inj {streams : Set (List UInt8)} (collisionFree : Set.InjOn Blake3.hash streams)
    (leftShort : Short left) (rightShort : Short right) (leftMember : seedStream left ∈ streams)
    (rightMember : seedStream right ∈ streams) : derive left = derive right ↔ left = right := by
  refine ⟨fun same => ?_, congrArg derive⟩
  exact seedStream_inj leftShort rightShort
    (collisionFree leftMember rightMember (derive_eq_derive_iff.1 same))

end Key

/-- The seeds of the address of a market's vault. -/
def Vault.seedsOf (market : Key) : List (List UInt8) := [seed, market.bytes]

/-- The seeds of the id that an authority's market is given for a nonce. -/
def Market.seedsOf (authority : Key) (nonce : UInt64) : List (List UInt8) :=
  [seed, authority.bytes, Key.lengthBytes nonce.toNat]

/-- The seeds of a vault are short. -/
theorem Vault.short_seedsOf (market : Key) : Key.Short (seedsOf market) := by
  rw [seedsOf, Key.short_cons, Key.short_cons, Key.length_bytes]
  exact ⟨by decide, by decide, nofun⟩

theorem Market.short_seedsOf (authority : Key) (nonce : UInt64) :
    Key.Short (seedsOf authority nonce) := by
  rw [seedsOf, Key.short_cons, Key.short_cons, Key.short_cons, Key.length_bytes,
    Key.length_lengthBytes]
  exact ⟨by decide, by decide, by decide, nofun⟩

/-- The seeds of a vault determine its market. -/
theorem Vault.seedsOf_injective : Function.Injective seedsOf := by
  intro left right same
  simp only [seedsOf, List.cons.injEq, and_true, true_and] at same
  exact Key.bytes_injective same

/-- The seeds of a market determine its authority and its nonce. -/
theorem Market.seedsOf_inj {authority other : Key} {nonce next : UInt64}
    (same : seedsOf authority nonce = seedsOf other next) : authority = other ∧ nonce = next := by
  simp only [seedsOf, List.cons.injEq, and_true, true_and] at same
  refine ⟨Key.bytes_injective same.1, ?_⟩
  exact UInt64.toNat_inj.1 (Key.lengthBytes_inj nonce.toNat_lt next.toNat_lt same.2)

/-- A vault has two seeds and a market three. -/
theorem Vault.seedsOf_ne (market authority : Key) (nonce : UInt64) :
    seedsOf market ≠ Market.seedsOf authority nonce := by
  intro same
  cases congrArg List.length same

end ComputeMarket
