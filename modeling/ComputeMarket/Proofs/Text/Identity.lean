import ComputeMarket.Digest.Hex
import ComputeMarket.Key.Base58
import ComputeMarket.Proofs.Guard
import ComputeMarket.Proofs.Radix

/-
This file proves that written keys and digests are read back as what they were.
-/

namespace ComputeMarket

namespace Base58

/-- The digits of the written form: a zero for every leading zero byte, then the number. -/
def spell (octets : List Nat) : List Nat :=
  List.replicate (octets.takeWhile (· == 0)).length 0 ++
    Radix.numeral 58 (2 * octets.length) (Radix.value 256 octets)

/-- A text in base 58 spells its octets with letters. -/
theorem encode_eq (octets : List Nat) : encode octets = (spell octets).map letter := by
  rw [encode, spell, List.map_append, List.map_replicate]
  rfl

theorem digit?_letter {digit : Nat} (small : digit < 58) : digit? (letter digit) = some digit := by
  have all : ∀ digit < 58, digit? (letter digit) = some digit := by decide +kernel
  exact all digit small

section Word

variable {number : Nat} (fits : number < 256 ^ 32)

include fits

/-- Sixty-four letters are room enough for a key. -/
theorem fits_spelled : Radix.value 256 (Radix.digits 256 32 number) < 58 ^ 64 := by
  rw [Radix.value_digits]
  exact Nat.lt_of_le_of_lt (Nat.mod_le _ _) (Nat.lt_trans fits (by decide))

theorem value_octets : Radix.value 256 (Radix.digits 256 32 number) = number := by
  rw [Radix.value_digits]
  exact Nat.mod_eq_of_lt fits

/-- A key is spelled with digits of the base. -/
theorem lt_of_mem_spell {digit : Nat} (member : digit ∈ spell (Radix.digits 256 32 number)) :
    digit < 58 := by
  rw [spell, Radix.length_digits] at member
  rcases List.mem_append.1 member with zero | spelled
  · have := List.eq_of_mem_replicate zero
    omega
  · exact Radix.lt_of_mem_numeral (by decide) (fits_spelled fits) spelled

/-- The bytes of a word are read back from their digits. -/
theorem decode_spell :
    decode (spell (Radix.digits 256 32 number)) = Radix.digits 256 32 number := by
  let zeros := ((Radix.digits 256 32 number).takeWhile (· == 0)).length
  let numeral := Radix.numeral 58 64 number
  have large : (1 : Nat) < 58 := by decide
  have enough : number < 58 ^ 64 := value_octets fits ▸ fits_spelled fits
  have spelled : spell (Radix.digits 256 32 number) = List.replicate zeros 0 ++ numeral := by
    rw [spell, Radix.length_digits, value_octets fits]
  have leading : (List.replicate zeros 0 ++ numeral).takeWhile (· == 0) = List.replicate zeros 0 :=
    Radix.takeWhile_zeros_append 58 64 number zeros
  have value : Radix.value 58 (List.replicate zeros 0 ++ numeral) = number := by
    rw [Radix.value_zeros_append, Radix.value_numeral large enough]
  have wide : number < 256 ^ (List.replicate zeros 0 ++ numeral).length := by
    have short := Radix.lt_pow_length_numeral large enough
    have longer : numeral.length ≤ (List.replicate zeros 0 ++ numeral).length := by simp
    have greater : 58 ^ numeral.length ≤ 256 ^ numeral.length := Nat.pow_le_pow_left (by decide) _
    exact Nat.lt_of_lt_of_le short
      (greater.trans (Nat.pow_le_pow_right (by decide) longer))
  rw [spelled, decode, leading, value, List.length_replicate,
    Radix.numeral_eq (by decide) wide, ← Radix.numeral_eq (by decide) fits]
  exact Radix.zeros_append_numeral 256 32 number

end Word

end Base58

namespace Key

/-- Letters in base 58 are read back as their digits. -/
theorem digitsOfText_map_letter {digits : List Nat} (small : ∀ digit ∈ digits, digit < 58)
    (position : Nat) : digitsOfText position (digits.map Base58.letter) = .ok digits := by
  induction digits generalizing position with
  | nil => rfl
  | cons first rest inductionHypothesis =>
      rw [List.forall_mem_cons] at small
      rw [List.map_cons, digitsOfText, Base58.digit?_letter small.1]
      simp only [inductionHypothesis small.2]
      rfl

/-- A written key is read back as the key. -/
theorem ofText_text (key : Key) : ofText key.text = .ok key := by
  have fits : key.word.number < 256 ^ 32 := key.word.number_lt
  have digits : digitsOfText 0 (key.text.toList) = .ok (Base58.spell key.word.octets) := by
    rw [text, chars, String.toList_ofList, Base58.encode_eq]
    exact digitsOfText_map_letter (fun _ member => Base58.lt_of_mem_spell fits member) 0
  have octets : Base58.decode (Base58.spell key.word.octets) = key.word.octets :=
    Base58.decode_spell fits
  rw [ofText, ofChars, digits, Guard.bind_eq_ok]
  refine ⟨_, rfl, ?_⟩
  simp only [octets, Word.length_octets, if_true, Word.value_octets, Word.ofNumber_number]
  rfl

end Key

namespace Digest

theorem hexDigit?_letter {digit : Nat} (small : digit < 16) :
    Hex.digit? (Hex.letter digit) = some digit := by
  have all : ∀ digit < 16, Hex.digit? (Hex.letter digit) = some digit := by decide +kernel
  exact all digit small

theorem digitsOfText_map_letter (text : String) {digits : List Nat}
    (small : ∀ digit ∈ digits, digit < 16) (position : Nat) :
    digitsOfText text position (digits.map Hex.letter) = .ok digits := by
  induction digits generalizing position with
  | nil => rfl
  | cons first rest inductionHypothesis =>
      rw [List.forall_mem_cons] at small
      rw [List.map_cons, digitsOfText, hexDigit?_letter small.1]
      simp only [inductionHypothesis small.2]
      rfl

/-- Every digit takes one byte. -/
theorem utf8ByteSize_letters {digits : List Nat} (small : ∀ digit ∈ digits, digit < 16) :
    (String.ofList (digits.map Hex.letter)).utf8ByteSize = digits.length := by
  have all : ∀ digit < 16, (Hex.letter digit).utf8Size = 1 := by decide +kernel
  induction digits with
  | nil => rfl
  | cons first rest inductionHypothesis =>
      rw [List.forall_mem_cons] at small
      rw [List.map_cons, String.ofList_cons, String.utf8ByteSize_append,
        String.utf8ByteSize_singleton, all first small.1, inductionHypothesis small.2,
        List.length_cons, Nat.add_comm]

/-- A written digest is read back as the digest. -/
theorem ofText_text (digest : Digest) : ofText digest.text = .ok digest := by
  have small : ∀ digit ∈ Radix.digits 16 64 digest.word.number, digit < 16 :=
    fun _ => Radix.lt_of_mem_digits (by decide)
  have size : digest.text.utf8ByteSize = 64 := by
    rw [text, chars, utf8ByteSize_letters small, Radix.length_digits]
  have digits : digitsOfText digest.text 0 digest.text.toList =
      .ok (Radix.digits 16 64 digest.word.number) := by
    rw [text, chars, String.toList_ofList]
    exact digitsOfText_map_letter _ small 0
  have value : Radix.value 16 (Radix.digits 16 64 digest.word.number) = digest.word.number := by
    rw [Radix.value_digits]
    exact Nat.mod_eq_of_lt digest.word.number_lt
  rw [ofText, Guard.refuse_eq_ok, Guard.bind_eq_ok]
  refine ⟨not_not.2 size, _, digits, ?_⟩
  rw [value, Word.ofNumber_number]
  rfl

end Digest

end ComputeMarket
