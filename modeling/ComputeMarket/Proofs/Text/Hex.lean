import ComputeMarket.Proofs.Text.Amount
import ComputeMarket.Proofs.Text.Identity

/-
This file proves that a text is read as a digest exactly if it is the written form of the digest up
to the case of its letters, and that such texts are the 64 bytes of hexadecimal digits.
-/

namespace ComputeMarket

namespace Hex

variable {character : Char} {digit : Nat}

/-- A byte that ASCII has for a digit or for one of the letters from A to F. -/
def IsDigit (byte : UInt8) : Prop :=
  0x30 ≤ byte ∧ byte ≤ 0x39 ∨ 0x41 ≤ byte ∧ byte ≤ 0x46 ∨ 0x61 ≤ byte ∧ byte ≤ 0x66

/-- The hexadecimal digits by their bytes, in both cases. -/
theorem isDigit_iff (byte : UInt8) : IsDigit byte ↔
    0x30 ≤ byte.toNat ∧ byte.toNat ≤ 0x39 ∨ 0x41 ≤ byte.toNat ∧ byte.toNat ≤ 0x46 ∨
      0x61 ≤ byte.toNat ∧ byte.toNat ≤ 0x66 := Iff.rfl

/-- Digits lie in the ranges of ASCII, at the same places as their bytes. -/
theorem digit?_ne_none : digit? character ≠ none ↔
    0x30 ≤ character.toNat ∧ character.toNat ≤ 0x39 ∨
      0x41 ≤ character.toNat ∧ character.toNat ≤ 0x46 ∨
      0x61 ≤ character.toNat ∧ character.toNat ≤ 0x66 := by
  have decimal : '0' ≤ character ∧ character ≤ '9' ↔
      0x30 ≤ character.toNat ∧ character.toNat ≤ 0x39 := Iff.rfl
  have small : 'a' ≤ character ∧ character ≤ 'f' ↔
      0x61 ≤ character.toNat ∧ character.toNat ≤ 0x66 := Iff.rfl
  have capital : 'A' ≤ character ∧ character ≤ 'F' ↔
      0x41 ≤ character.toNat ∧ character.toNat ≤ 0x46 := Iff.rfl
  unfold digit?
  simp only [decimal, small, capital]
  split_ifs <;>
    simp only [ne_eq, reduceCtorEq, not_false_eq_true, not_true, true_iff, false_iff] <;> omega

theorem toNat_lt_of_digit? (read : digit? character = some digit) : character.toNat < 128 := by
  have some : digit? character ≠ none := by
    rw [read]
    exact nofun
  have ranges := digit?_ne_none.1 some
  omega

theorem utf8Size_of_digit? (read : digit? character = some digit) : character.utf8Size = 1 :=
  Char.utf8Size_eq_one_iff.2 (Nat.le_of_lt_succ (toNat_lt_of_digit? read))

/-- A character is read as the digit that its small form is written for. -/
theorem digit?_eq_some :
    digit? character = some digit ↔ digit < 16 ∧ character.toLower = letter digit := by
  have ascii : ∀ code < 128, ∀ digit < 16,
      digit? (Char.ofNat code) = some digit ↔ (Char.ofNat code).toLower = letter digit := by
    decide +kernel
  have values : ∀ code < 128, ∀ digit, digit? (Char.ofNat code) = some digit → digit < 16 := by
    have options : ∀ code < 128, ∀ digit ∈ digit? (Char.ofNat code), digit < 16 := by
      decide +kernel
    exact options
  by_cases narrow : character.toNat < 128
  · have known : ∀ digit < 16,
        digit? character = some digit ↔ character.toLower = letter digit := by
      have row := ascii character.toNat narrow
      rwa [Char.ofNat_toNat] at row
    have small := values character.toNat narrow digit
    rw [Char.ofNat_toNat] at small
    constructor
    · intro read
      exact ⟨small read, (known digit (small read)).1 read⟩
    · rintro ⟨least, same⟩
      exact (known digit least).2 same
  · constructor
    · intro read
      exact absurd (toNat_lt_of_digit? read) narrow
    · rintro ⟨least, same⟩
      have letters : ∀ digit < 16, (letter digit).toNat < 128 := by decide +kernel
      have kept : character.toLower = character := by
        refine dif_neg ?_
        rintro ⟨-, below⟩
        exact narrow (Nat.lt_of_le_of_lt below (by decide))
      rw [kept] at same
      exact absurd (same ▸ letters digit least) narrow

/-- The bytes of a character are digits exactly if the character is one. -/
theorem forall_utf8EncodeChar :
    (∀ byte ∈ String.utf8EncodeChar character, IsDigit byte) ↔ digit? character ≠ none := by
  have code : character.val.toNat = character.toNat := rfl
  rw [digit?_ne_none]
  by_cases narrow : character.toNat ≤ 127
  · have same : character.val.toUInt8.toNat = character.toNat := by
      rw [UInt32.toNat_toUInt8, code]
      exact Nat.mod_eq_of_lt (by omega)
    rw [String.utf8EncodeChar_eq_singleton (Char.utf8Size_eq_one_iff.2 narrow),
      List.forall_mem_singleton, isDigit_iff, same]
  · -- every byte of a longer form lies above ASCII, so that the first one is enough
    have lead : ∃ byte ∈ String.utf8EncodeChar character, 128 ≤ byte.toNat := by
      rw [String.utf8EncodeChar, code, if_neg narrow]
      split_ifs <;> refine ⟨_, List.mem_cons_self, ?_⟩ <;> rw [UInt8.toNat_ofNat'] <;> omega
    constructor
    · intro digits
      obtain ⟨byte, member, wide⟩ := lead
      have ranges := (isDigit_iff byte).1 (digits byte member)
      omega
    · omega

/-- The bytes of a text are those of its characters. -/
theorem forall_mem_bytes {text : String} :
    (∀ byte ∈ text.toUTF8.data.toList, IsDigit byte) ↔
      ∀ character ∈ text.toList, digit? character ≠ none := by
  have bytes : text.toUTF8.data.toList = text.toList.flatMap String.utf8EncodeChar := by
    rw [String.toUTF8, ← String.utf8Encode_toList, List.utf8Encode, List.data_toByteArray]
  rw [bytes, List.forall_mem_flatMap]
  exact forall₂_congr fun _ _ => forall_utf8EncodeChar

end Hex

namespace Digest

open Hex (letter digit?)

variable {text other : String} {digest otherDigest : Digest}

/-- Characters are read as the digits that their small forms are written for. -/
theorem digitsOfText_eq_ok {characters : List Char} {position : Nat} {digits : List Nat} :
    digitsOfText text position characters = .ok digits ↔
      characters.map Char.toLower = digits.map letter ∧ ∀ digit ∈ digits, digit < 16 := by
  induction characters generalizing position digits with
  | nil => cases digits <;> simp [digitsOfText]
  | cons first rest inductionHypothesis =>
      rw [digitsOfText]
      constructor
      · intro found
        cases read : digit? first with
        | none =>
            rw [read] at found
            cases found
        | some digit =>
            rw [read] at found
            obtain ⟨later, readRest, rfl⟩ := Guard.map_eq_ok.1 found
            obtain ⟨same, small⟩ := inductionHypothesis.1 readRest
            obtain ⟨least, lower⟩ := Hex.digit?_eq_some.1 read
            rw [List.map_cons, List.map_cons, same, lower]
            exact ⟨rfl, List.forall_mem_cons.2 ⟨least, small⟩⟩
      · rintro ⟨same, small⟩
        cases digits with
        | nil => cases same
        | cons digit later =>
            rw [List.map_cons, List.map_cons, List.cons.injEq] at same
            rw [List.forall_mem_cons] at small
            rw [Hex.digit?_eq_some.2 ⟨small.1, same.1⟩]
            simp only [inductionHypothesis.2 ⟨same.2, small.2⟩]
            rfl

/-- A text is read digit by digit exactly if all its characters are digits. -/
theorem digitsOfText_isOk_iff (text : String) (position : Nat) {characters : List Char} :
    (∃ digits, digitsOfText text position characters = .ok digits) ↔
      ∀ character ∈ characters, digit? character ≠ none := by
  induction characters generalizing position with
  | nil => exact iff_of_true ⟨[], rfl⟩ (List.forall_mem_nil _)
  | cons first rest inductionHypothesis =>
      rw [digitsOfText, List.forall_mem_cons, ← inductionHypothesis (position + 1)]
      cases digit? first with
      | none => simp
      | some digit => simp [Guard.map_eq_ok]

/-- A text whose small form is digits has as many bytes. -/
theorem utf8ByteSize_of_lower {digits : List Nat}
    (same : text.toList.map Char.toLower = digits.map letter)
    (small : ∀ digit ∈ digits, digit < 16) : text.utf8ByteSize = digits.length := by
  have narrow : ∀ character ∈ text.toList, character.utf8Size = 1 := by
    intro character member
    have lower : character.toLower ∈ digits.map letter := by
      rw [← same]
      exact List.mem_map_of_mem member
    obtain ⟨digit, inside, written⟩ := List.mem_map.1 lower
    exact Hex.utf8Size_of_digit? (Hex.digit?_eq_some.2 ⟨small digit inside, written.symm⟩)
  have size := Amount.byteLength_eq_length narrow
  rw [Amount.byteLength, String.ofList_toList] at size
  rw [size, ← List.length_map (f := Char.toLower), same, List.length_map]

/-- A text is read as a digest exactly if its small form is the written form of the digest. -/
theorem ofText_eq_ok : ofText text = .ok digest ↔ text.toLower = digest.text := by
  have written : text.toLower = digest.text ↔
      text.toList.map Char.toLower = (Radix.digits 16 64 digest.word.number).map letter := by
    change text.map Char.toLower = digest.text ↔ _
    rw [← String.toList_inj, String.toList_map, Digest.text, String.toList_ofList,
      chars]
  rw [ofText, Guard.refuse_eq_ok, not_not, Guard.bind_eq_ok, written]
  simp only [digitsOfText_eq_ok]
  constructor
  · rintro ⟨size, digits, ⟨same, small⟩, found⟩
    obtain rfl := Except.ok.inj found
    have width : digits.length = 64 := (utf8ByteSize_of_lower same small).symm.trans size
    have fits : Radix.value 16 digits < Radix.capacity 256 32 :=
      (width ▸ Radix.value_lt (by decide) small).trans_le (by decide)
    have number : (Word.ofNumber (Radix.value 16 digits)).number = Radix.value 16 digits :=
      Nat.mod_eq_of_lt fits
    rw [same, number, ← width, Radix.digits_value (by decide) small]
  · intro same
    have small : ∀ digit ∈ Radix.digits 16 64 digest.word.number, digit < 16 :=
      fun _ => Radix.lt_of_mem_digits (by decide)
    have value : Radix.value 16 (Radix.digits 16 64 digest.word.number) = digest.word.number :=
      (Radix.value_digits ..).trans (Nat.mod_eq_of_lt digest.word.number_lt)
    refine ⟨?_, _, ⟨same, small⟩, ?_⟩
    · rw [utf8ByteSize_of_lower same small, Radix.length_digits]
    · rw [value, Word.ofNumber_number]
      rfl

/-- The texts that are read are those of 64 bytes that are all digits. -/
theorem ofText_isOk_iff : (∃ digest, ofText text = .ok digest) ↔
    text.utf8ByteSize = 64 ∧ ∀ byte ∈ text.toUTF8.data.toList, Hex.IsDigit byte := by
  rw [Hex.forall_mem_bytes, ← digitsOfText_isOk_iff text 0]
  simp only [ofText, Guard.refuse_eq_ok, not_not, Guard.bind_eq_ok]
  constructor
  · rintro ⟨digest, size, digits, found, -⟩
    exact ⟨size, digits, found⟩
  · rintro ⟨size, digits, found⟩
    exact ⟨_, size, digits, found, rfl⟩

/-- A digest is printed in lower case. -/
theorem mem_letters_of_mem_text {character : Char} (member : character ∈ digest.text.toList) :
    character ∈ "0123456789abcdef".toList := by
  have letters : ∀ digit < 16, letter digit ∈ "0123456789abcdef".toList := by decide +kernel
  rw [text, String.toList_ofList, chars, List.mem_map] at member
  obtain ⟨digit, inside, rfl⟩ := member
  exact letters digit (Radix.lt_of_mem_digits (by decide) inside)

theorem length_text (digest : Digest) : digest.text.length = 64 := by
  rw [text, String.length_ofList, chars, List.length_map, Radix.length_digits]

/-- A text that is read has no sign, no white space and no character of more than one byte. -/
theorem plain_of_ofText (read : ofText text = .ok digest) :
    ∀ character ∈ text.toList, character.utf8Size = 1 ∧ character ≠ '+' ∧ character ≠ '-' ∧
      Text.isBlank character = false := by
  intro character member
  have digits := Hex.forall_mem_bytes.1 (ofText_isOk_iff.1 ⟨digest, read⟩).2 character member
  have ranges := Hex.digit?_ne_none.1 digits
  obtain ⟨digit, found⟩ := Option.ne_none_iff_exists'.1 digits
  have notPlus : character ≠ '+' := by
    rintro rfl
    exact absurd digits (by decide)
  have notMinus : character ≠ '-' := by
    rintro rfl
    exact absurd digits (by decide)
  refine ⟨Hex.utf8Size_of_digit? found, notPlus, notMinus, ?_⟩
  simp only [Text.isBlank, Bool.or_eq_false_iff, Bool.and_eq_false_iff, decide_eq_false_iff_not,
    beq_eq_false_iff_ne]
  omega

/-- Digests are written as 64 small hexadecimal digits and read back. A text is read exactly if it
is 64 bytes that are all hexadecimal digits, with letters in either case, and it is then the written
form of its digest but for the case of its letters. So texts of one digest differ in that case
only. -/
theorem texts_in_either_case :
    (∀ digest : Digest, ofText digest.text = .ok digest ∧ digest.text.length = 64 ∧
      ∀ character ∈ digest.text.toList, character ∈ "0123456789abcdef".toList) ∧
    (∀ text : String, (∃ digest, ofText text = .ok digest) ↔
      text.utf8ByteSize = 64 ∧ ∀ byte ∈ text.toUTF8.data.toList, Hex.IsDigit byte) ∧
    (∀ (text : String) (digest : Digest), ofText text = .ok digest → digest.text = text.toLower) ∧
    (∀ (text other : String) (digest otherDigest : Digest), ofText text = .ok digest →
      ofText other = .ok otherDigest → (digest = otherDigest ↔ text.toLower = other.toLower)) ∧
    ∀ (text : String) (digest : Digest), ofText text = .ok digest →
      ∀ character ∈ text.toList, character.utf8Size = 1 ∧ character ≠ '+' ∧ character ≠ '-' ∧
        Text.isBlank character = false := by
  refine ⟨?_, fun _ => ofText_isOk_iff, ?_, ?_, fun _ _ => plain_of_ofText⟩
  · intro digest
    exact ⟨ofText_text digest, length_text digest, fun _ => mem_letters_of_mem_text⟩
  · intro text digest read
    exact (ofText_eq_ok.1 read).symm
  · intro text other digest otherDigest read readOther
    rw [ofText_eq_ok.1 read, ofText_eq_ok.1 readOther]
    constructor
    · rintro rfl
      rfl
    · intro same
      have found := ofText_text digest
      rw [same, ofText_text] at found
      exact (Except.ok.inj found).symm

/-- One digest in two spellings, one in small letters and one in both. A sign that stands where a
digit should is not read, nor are thirty-two characters of two bytes. -/
theorem texts_in_either_case_mixed :
    let mixed := String.ofList ((List.replicate 31 ['A', 'b']).flatten ++ ['0', 'F'])
    let small := String.ofList ((List.replicate 31 ['a', 'b']).flatten ++ ['0', 'f'])
    let signed := String.ofList (List.replicate 32 ['+', 'f']).flatten
    let wide := String.ofList (List.replicate 32 'é')
    (∃ digest, ofText mixed = .ok digest ∧ ofText small = .ok digest ∧ digest.text = mixed.toLower ∧
      mixed.toLower = small.toLower ∧ ∀ character ∈ mixed.toList, character.utf8Size = 1) ∧
    (¬ ∃ digest, ofText signed = .ok digest) ∧ wide.utf8ByteSize = 64 ∧
    ¬ ∃ digest, ofText wide = .ok digest := by
  intro mixed small signed wide
  obtain ⟨-, accepted, lower, same, plain⟩ := texts_in_either_case
  have read : ∃ digest, ofText mixed = .ok digest ∧ ofText small = .ok digest := by
    refine ⟨⟨Word.ofBytes (List.replicate 31 0xab ++ [0x0f])⟩, ?_, ?_⟩ <;> decide +kernel
  obtain ⟨digest, readMixed, readSmall⟩ := read
  refine ⟨⟨digest, readMixed, readSmall, lower mixed digest readMixed,
    (same mixed small digest digest readMixed readSmall).1 rfl,
    fun character member => (plain mixed digest readMixed character member).1⟩, ?_, ?_, ?_⟩
  · intro readable
    have digits := ((accepted signed).1 readable).2
    exact absurd (Hex.forall_mem_bytes.1 digits '+' (by decide +kernel)) (by decide)
  · decide +kernel
  · intro readable
    have digits := ((accepted wide).1 readable).2
    exact absurd (Hex.forall_mem_bytes.1 digits 'é' (by decide +kernel)) (by decide)

end Digest

end ComputeMarket
