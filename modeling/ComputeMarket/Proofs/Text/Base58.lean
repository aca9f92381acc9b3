import ComputeMarket.Proofs.Text.Identity

/-
This file proves that a text is read as a key exactly if it is the written form of the key, and says
why any other text is refused.
-/

namespace ComputeMarket

/-- Thirty-two bytes are those of the word that they spell. -/
theorem Word.octets_ofNumber_value {octets : List Nat} (small : ∀ octet ∈ octets, octet < 256)
    (whole : octets.length = 32) : (ofNumber (Radix.value 256 octets)).octets = octets := by
  have large : (1 : Nat) < 256 := by decide
  have fits : Radix.value 256 octets < Radix.capacity 256 32 := whole ▸ Radix.value_lt large small
  have number : (ofNumber (Radix.value 256 octets)).number = Radix.value 256 octets :=
    Nat.mod_eq_of_lt fits
  rw [Word.octets, number, ← whole]
  exact Radix.digits_value large small

namespace Base58

variable {character : Char} {number : Nat} {digits : List Nat}

theorem exists_digit (member : character ∈ alphabet) : ∃ digit < 58, character = letter digit := by
  obtain ⟨digit, small, same⟩ := List.mem_iff_getElem.1 member
  refine ⟨digit, small, ?_⟩
  rw [← same, letter, List.getD_eq_getElem?_getD, List.getElem?_eq_getElem small,
    Option.getD_some]

/-- A text of digits only stands for those digits. -/
theorem exists_digits {text : List Char} (plain : ∀ character ∈ text, character ∈ alphabet) :
    ∃ digits : List Nat, text = digits.map letter ∧ ∀ digit ∈ digits, digit < 58 := by
  induction text with
  | nil => exact ⟨[], rfl, List.forall_mem_nil _⟩
  | cons first rest inductionHypothesis =>
      rw [List.forall_mem_cons] at plain
      obtain ⟨digit, least, rfl⟩ := exists_digit plain.1
      obtain ⟨digits, rfl, small⟩ := inductionHypothesis plain.2
      exact ⟨digit :: digits, rfl, List.forall_mem_cons.2 ⟨least, small⟩⟩

theorem digit?_eq_none : digit? character = none ↔ character ∉ alphabet :=
  List.idxOf?_eq_none_iff

section Decoded

variable (small : ∀ digit ∈ digits, digit < 58)

include small

/-- As many bytes as digits are enough for their number. -/
theorem value_lt_bytes : Radix.value 58 digits < 256 ^ digits.length :=
  (Radix.value_lt (by decide) small).trans_le (Nat.pow_le_pow_left (by decide) _)

/-- Decoded numbers are octets. -/
theorem lt_of_mem_decode {octet : Nat} (member : octet ∈ decode digits) : octet < 256 := by
  rcases List.mem_append.1 member with zero | spelled
  · have := List.eq_of_mem_replicate zero
    omega
  · exact Radix.lt_of_mem_numeral (by decide) (value_lt_bytes small) spelled

/-- What digits are decoded to spells the digits again: leading zeros as many as there were, and the
number without any. -/
theorem spell_decode : spell (decode digits) = digits := by
  let zeros := (digits.takeWhile (· == 0)).length
  let numeral := Radix.numeral 256 digits.length (Radix.value 58 digits)
  have large : (1 : Nat) < 256 := by decide
  have enough := value_lt_bytes small
  have decoded : decode digits = List.replicate zeros 0 ++ numeral := rfl
  have leading : (List.replicate zeros 0 ++ numeral).takeWhile (· == 0) = List.replicate zeros 0 :=
    Radix.takeWhile_zeros_append 256 digits.length _ zeros
  have value : Radix.value 256 (List.replicate zeros 0 ++ numeral) = Radix.value 58 digits := by
    rw [Radix.value_zeros_append, Radix.value_numeral large enough]
  have wide : Radix.value 58 digits < 58 ^ (2 * (List.replicate zeros 0 ++ numeral).length) := by
    have short := Radix.lt_pow_length_numeral large enough
    have longer : numeral.length ≤ (List.replicate zeros 0 ++ numeral).length := by simp
    rw [Nat.pow_mul]
    exact short.trans_le
      ((Nat.pow_le_pow_left (by decide) _).trans (Nat.pow_le_pow_right (by decide) longer))
  rw [decoded, spell, leading, value, List.length_replicate,
    Radix.numeral_value (by decide) small wide]
  exact Radix.zeros_append_dropWhile digits

end Decoded

/-- A word takes at least as many digits as bytes, and at most twelve more. -/
theorem length_spell (fits : number < 256 ^ 32) :
    32 ≤ (spell (Radix.digits 256 32 number)).length ∧
      (spell (Radix.digits 256 32 number)).length ≤ 44 := by
  have enough : number < 58 ^ 64 := value_octets fits ▸ fits_spelled fits
  have bytes := congrArg List.length (Radix.zeros_append_numeral 256 32 number)
  rw [List.length_append, List.length_replicate, Radix.length_digits,
    Radix.numeral_eq (by decide) fits, List.length_reverse] at bytes
  rw [spell, Radix.length_digits, value_octets fits, List.length_append, List.length_replicate,
    Radix.numeral_eq (by decide) enough, List.length_reverse]
  have more : (Nat.digits 256 number).length ≤ (Nat.digits 58 number).length := by
    rw [Nat.digits_length_le_iff (by decide)]
    exact (Nat.lt_base_pow_length_digits (by decide)).trans_le (Nat.pow_le_pow_left (by decide) _)
  have few : (Nat.digits 58 number).length ≤ (Nat.digits 256 number).length + 12 := by
    have powers : ∀ width < 33, 256 ^ width ≤ 58 ^ (width + 12) := by decide +kernel
    rw [Nat.digits_length_le_iff (by decide)]
    exact (Nat.lt_base_pow_length_digits (by decide)).trans_le (powers _ (by omega))
  omega

end Base58

namespace Key

open Base58 (alphabet letter)

variable {text : List Char} {digits : List Nat} {key : Key} {cause : TextError}

/-- The complaint about a character that is no digit. -/
def TextError.foreign (character : Char) (position : Nat) : TextError :=
  if character.toNat < 128 then .invalidCharacter character position
  else .nonAsciiCharacter position

/-- Reading stops at the first character that is no digit. -/
theorem digitsOfText_foreign {before after : List Char} {character : Char}
    (plain : ∀ digit ∈ before, digit ∈ alphabet) (foreign : character ∉ alphabet)
    (position : Nat) : digitsOfText position (before ++ character :: after) =
      .error (.foreign character (position + before.length)) := by
  induction before generalizing position with
  | nil =>
      rw [List.nil_append, digitsOfText, Base58.digit?_eq_none.2 foreign, TextError.foreign]
      exact (apply_ite Except.error ..).symm
  | cons first rest inductionHypothesis =>
      rw [List.forall_mem_cons] at plain
      obtain ⟨digit, small, rfl⟩ := Base58.exists_digit plain.1
      rw [List.cons_append, digitsOfText, Base58.digit?_letter small]
      simp only [inductionHypothesis plain.2]
      rw [List.length_cons, Nat.add_assoc, Nat.add_comm 1]
      rfl

/-- Either all characters of a text are digits, or one is the first that is none. -/
theorem digits_or_foreign (text : List Char) :
    (∀ character ∈ text, character ∈ alphabet) ∨
      ∃ before character after, text = before ++ character :: after ∧
        (∀ digit ∈ before, digit ∈ alphabet) ∧ character ∉ alphabet := by
  induction text with
  | nil => exact .inl (List.forall_mem_nil _)
  | cons first rest inductionHypothesis =>
      by_cases member : first ∈ alphabet
      · obtain plain | ⟨before, character, after, rfl, plain, foreign⟩ := inductionHypothesis
        · exact .inl (List.forall_mem_cons.2 ⟨member, plain⟩)
        · exact .inr ⟨first :: before, character, after, rfl,
            List.forall_mem_cons.2 ⟨member, plain⟩, foreign⟩
      · exact .inr ⟨[], first, rest, rfl, List.forall_mem_nil _, member⟩

/-- Why a text is no key: its first character that is no digit of base 58, with its place, or else
the number of bytes that its digits stand for. -/
inductive Unreadable (text : List Char) : TextError → Prop
  | foreign (before after : List Char) (character : Char)
      (split : text = before ++ character :: after)
      (plain : ∀ digit ∈ before, digit ∈ alphabet) (foreign : character ∉ alphabet) :
      Unreadable text (.foreign character before.length)
  | length (digits : List Nat) (spelled : text = digits.map letter)
      (small : ∀ digit ∈ digits, digit < 58) (wrong : (Base58.decode digits).length ≠ 32) :
      Unreadable text (.wrongLength (Base58.decode digits).length)

/-- A text of letters is a key exactly if it stands for 32 octets. -/
theorem ofChars_map_letter (small : ∀ digit ∈ digits, digit < 58) :
    ofChars (digits.map letter) =
      if (Base58.decode digits).length = 32 then
        .ok ⟨Word.ofNumber (Radix.value 256 (Base58.decode digits))⟩
      else .error (.wrongLength (Base58.decode digits).length) := by
  rw [ofChars, digitsOfText_map_letter small]
  rfl

/-- Digits that stand for a whole word are read as the key that is written with them. -/
theorem ofChars_of_length (small : ∀ digit ∈ digits, digit < 58)
    (whole : (Base58.decode digits).length = 32) :
    ∃ key : Key, ofChars (digits.map letter) = .ok key ∧ key.chars = digits.map letter := by
  have octets := Word.octets_ofNumber_value (fun _ => Base58.lt_of_mem_decode small) whole
  rw [ofChars_map_letter small, if_pos whole]
  refine ⟨_, rfl, ?_⟩
  rw [chars, octets, Base58.encode_eq, Base58.spell_decode small]

/-- The first character outside of the alphabet is the cause of the refusal. -/
theorem ofChars_foreign {before after : List Char} {character : Char}
    (plain : ∀ digit ∈ before, digit ∈ alphabet) (foreign : character ∉ alphabet) :
    ofChars (before ++ character :: after) = .error (.foreign character before.length) := by
  rw [ofChars, digitsOfText_foreign plain foreign, Nat.zero_add]
  rfl

/-- A text that is not read is refused for a reason, and any other text is a written key. -/
theorem ofChars_cases (text : List Char) :
    (∃ key : Key, ofChars text = .ok key ∧ key.chars = text) ∨
      ∃ cause, ofChars text = .error cause ∧ Unreadable text cause := by
  obtain plain | ⟨before, character, after, rfl, plain, foreign⟩ := digits_or_foreign text
  · obtain ⟨digits, rfl, small⟩ := Base58.exists_digits plain
    by_cases whole : (Base58.decode digits).length = 32
    · exact .inl (ofChars_of_length small whole)
    · right
      refine ⟨_, ?_, .length digits rfl small whole⟩
      rw [ofChars_map_letter small, if_neg whole]
  · exact .inr ⟨_, ofChars_foreign plain foreign, .foreign before after character rfl plain foreign⟩

/-- A text that is unreadable for a cause is refused for this cause. -/
theorem ofChars_of_unreadable (unreadable : Unreadable text cause) :
    ofChars text = .error cause := by
  cases unreadable with
  | foreign before after character split plain foreign =>
      rw [split, ofChars_foreign plain foreign]
  | length digits spelled small wrong =>
      rw [spelled, ofChars_map_letter small, if_neg wrong]

/-- A text that is read as a key is the text of the key. -/
theorem eq_text_of_ofText {text : String} (read : ofText text = .ok key) : text = key.text := by
  obtain ⟨known, readKnown, written⟩ | ⟨cause, refused, -⟩ := ofChars_cases text.toList
  · obtain rfl : known = key := Except.ok.inj (readKnown.symm.trans read)
    rw [Key.text, written, String.ofList_toList]
  · rw [ofText, refused] at read
    cases read

/-- A text is read as a key exactly if it is the text of the key. -/
theorem ofText_eq_ok {text : String} : ofText text = .ok key ↔ text = key.text :=
  ⟨eq_text_of_ofText, fun written => written ▸ ofText_text key⟩

/-- A text is refused for a cause exactly if it is unreadable for it. -/
theorem ofText_eq_error {text : String} :
    ofText text = .error cause ↔ Unreadable text.toList cause := by
  refine ⟨fun refused => ?_, ofChars_of_unreadable⟩
  obtain ⟨key, read, -⟩ | ⟨known, refusedKnown, unreadable⟩ := ofChars_cases text.toList
  · rw [ofText, read] at refused
    cases refused
  · obtain rfl : known = cause := Except.error.inj (refusedKnown.symm.trans refused)
    exact unreadable

/-- The text of a key has between 32 and 44 characters. -/
theorem length_text (key : Key) : 32 ≤ key.text.length ∧ key.text.length ≤ 44 := by
  rw [Key.text, String.length_ofList, chars, Base58.encode_eq, List.length_map]
  exact Base58.length_spell key.word.number_lt

/-- Every complaint says first that the text is no key. -/
theorem TextError.message_eq (cause : TextError) :
    ∃ detail, cause.message = "invalid pubkey: " ++ detail := by
  -- the texts are split by the kernel, since unification would unfold them character by character
  have character : "invalid pubkey: provided string contained invalid character " =
      "invalid pubkey: " ++ "provided string contained invalid character " := by decide +kernel
  have nonAscii : "invalid pubkey: provided string contained non-ascii character starting at byte " =
      "invalid pubkey: " ++ "provided string contained non-ascii character starting at byte " := by
    decide +kernel
  have length : "invalid pubkey: expected 32 bytes, got " =
      "invalid pubkey: " ++ "expected 32 bytes, got " := by decide +kernel
  unfold message
  cases cause with
  | invalidCharacter =>
      dsimp only
      rw [character, String.append_assoc, String.append_assoc, String.append_assoc]
      exact ⟨_, rfl⟩
  | nonAsciiCharacter =>
      dsimp only
      rw [nonAscii]
      exact ⟨_, String.append_assoc⟩
  | wrongLength =>
      dsimp only
      rw [length]
      exact ⟨_, String.append_assoc⟩

/-- A text is read as a key exactly if it is the written form of that key, so a key has one text
only, of 32 to 44 characters. Any other text is refused as no key: it has a character that is no
digit of base 58, or its digits stand for another number of bytes than 32. -/
theorem texts_canonical :
    (∀ (text : String) (key : Key), ofText text = .ok key ↔ text = key.text) ∧
    (∀ (text other : String) (key : Key), ofText text = .ok key → ofText other = .ok key →
      text = other) ∧
    (∀ key : Key, 32 ≤ key.text.length ∧ key.text.length ≤ 44) ∧
    (∀ text : String, (∀ key : Key, text ≠ key.text) → ∃ cause detail,
      ofText text = .error cause ∧ cause.message = "invalid pubkey: " ++ detail) ∧
    ∀ (text : String) (cause : TextError),
      ofText text = .error cause ↔ Unreadable text.toList cause := by
  refine ⟨fun _ _ => ofText_eq_ok, ?_, length_text, ?_, fun _ _ => ofText_eq_error⟩
  · intro text other key read otherRead
    rw [eq_text_of_ofText read, eq_text_of_ofText otherRead]
  · intro text unwritten
    cases result : ofText text with
    | ok key => exact absurd (eq_text_of_ofText result) (unwritten key)
    | error cause =>
        obtain ⟨detail, same⟩ := cause.message_eq
        exact ⟨cause, detail, rfl, same⟩

theorem texts_canonical_short :
    ofText "11111111111111111111111111111115" = .ok (ofBytes [4]) ∧
    "11111111111111111111111111111115" = (ofBytes [4]).text ∧
    (∀ other, ofText other = .ok (ofBytes [4]) → "11111111111111111111111111111115" = other) ∧
    (∀ key : Key, "1115" ≠ key.text) ∧
    (∃ cause detail, ofText "1115" = .error cause ∧
      cause.message = "invalid pubkey: " ++ detail) ∧
    Unreadable "1115".toList (.wrongLength 4) ∧
    Unreadable "11O5".toList (.invalidCharacter 'O' 2) := by
  obtain ⟨written, single, -, refused, reasons⟩ := texts_canonical
  have read : ofText "11111111111111111111111111111115" = .ok (ofBytes [4]) := by decide +kernel
  have short : ofText "1115" = .error (.wrongLength 4) := by decide +kernel
  have foreign : ofText "11O5" = .error (.invalidCharacter 'O' 2) := by decide +kernel
  have unwritten : ∀ key : Key, "1115" ≠ key.text := by
    intro key same
    have readShort := (written "1115" key).2 same
    rw [short] at readShort
    cases readShort
  exact ⟨read, (written _ _).1 read, fun other => single _ other _ read, unwritten,
    refused _ unwritten, (reasons _ _).1 short, (reasons _ _).1 foreign⟩

end Key

end ComputeMarket
