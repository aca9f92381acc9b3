import ComputeMarket.Amount.Text
import ComputeMarket.Json.Token
import ComputeMarket.Proofs.Guard
import ComputeMarket.Proofs.Radix

/-
This file proves which texts are read as amounts, and as which ones.
-/

namespace ComputeMarket

open Json.Numeral (values digitsValue)

namespace Text

/-- Every character is an ASCII digit. -/
def IsDigits (text : List Char) : Prop := ∀ character ∈ text, character.isDigit = true

/-- The text without the plus sign that it may start with. -/
def dropPlus : List Char → List Char
  | '+' :: rest => rest
  | text => text

variable {text : List Char} {number : Nat}

/-- The digits are the ten decimal ones, and the value of each is its distance from zero. -/
theorem digit?_eq_some {character : Char} {digit : Nat} :
    digit? character = some digit ↔ character.isDigit = true ∧ digit = character.toNat - 48 := by
  have same : '0' ≤ character ∧ character ≤ '9' ↔ character.isDigit = true := by
    simp [Char.isDigit, Char.le_def]
  unfold digit?
  simp only [same]
  by_cases plain : character.isDigit = true <;> simp [plain, eq_comm]

theorem isDigits_cons {first : Char} {rest : List Char} :
    IsDigits (first :: rest) ↔ first.isDigit = true ∧ IsDigits rest :=
  List.forall_mem_cons

theorem isDigits_append {first second : List Char} :
    IsDigits (first ++ second) ↔ IsDigits first ∧ IsDigits second :=
  List.forall_mem_append

theorem isDigits_zeros (zeros : Nat) : IsDigits (List.replicate zeros '0') := by
  intro character member
  rw [List.eq_of_mem_replicate member]
  rfl

/-- The digits of a text are read if it has nothing but digits. -/
theorem mapM_digit?_eq_some {digits : List Nat} :
    text.mapM digit? = some digits ↔ IsDigits text ∧ digits = values text := by
  induction text generalizing digits with
  | nil =>
      change some [] = some digits ↔ _
      rw [Option.some.injEq, eq_comm]
      exact (and_iff_right (List.forall_mem_nil _)).symm
  | cons first rest inductionHypothesis =>
      rw [List.mapM_cons, Option.bind_eq_bind, Option.bind_eq_some_iff, isDigits_cons]
      constructor
      · rintro ⟨digit, read, others⟩
        obtain ⟨plain, rfl⟩ := digit?_eq_some.1 read
        obtain ⟨known, readRest, same⟩ := Option.bind_eq_some_iff.1 others
        obtain ⟨plainRest, rfl⟩ := inductionHypothesis.1 readRest
        cases same
        exact ⟨⟨plain, plainRest⟩, rfl⟩
      · rintro ⟨⟨plain, plainRest⟩, rfl⟩
        refine ⟨_, digit?_eq_some.2 ⟨plain, rfl⟩, ?_⟩
        exact Option.bind_eq_some_iff.2 ⟨_, inductionHypothesis.2 ⟨plainRest, rfl⟩, rfl⟩

/-- A number is read from a text of digits that is not empty, and it has their value. -/
theorem digits?_eq_some :
    digits? text = some number ↔ text ≠ [] ∧ IsDigits text ∧ number = digitsValue text := by
  cases text with
  | nil => simp [digits?]
  | cons first rest =>
      rw [digits?, Option.map_eq_some_iff, and_iff_right (List.cons_ne_nil _ _)]
      simp only [mapM_digit?_eq_some]
      constructor
      · rintro ⟨digits, ⟨plain, rfl⟩, rfl⟩
        exact ⟨plain, rfl⟩
      · rintro ⟨plain, rfl⟩
        exact ⟨_, ⟨plain, rfl⟩, rfl⟩

/-- A number may have a plus sign in front, which is not part of it. -/
theorem unsigned?_eq (text : List Char) : unsigned? text = digits? (dropPlus text) := by
  cases text with
  | nil => rfl
  | cons first rest =>
      by_cases plus : first = '+'
      · subst plus
        rfl
      · simp [unsigned?, dropPlus, plus]

/-- Zeros at the end make a number as many powers of ten greater. -/
theorem digitsValue_append_zeros (digits : List Char) (zeros : Nat) :
    digitsValue (digits ++ List.replicate zeros '0') = digitsValue digits * 10 ^ zeros := by
  induction zeros with
  | zero => simp
  | succ zeros inductionHypothesis =>
      rw [List.replicate_succ', ← List.append_assoc, digitsValue, values, List.map_append,
        List.map_singleton, Radix.value_append_singleton, Nat.pow_succ, ← Nat.mul_assoc]
      exact congrArg (· * 10) inductionHypothesis

theorem utf8Size_of_isDigit {character : Char} (plain : character.isDigit = true) :
    character.utf8Size = 1 := by
  rw [Char.isDigit, Bool.and_eq_true, decide_eq_true_eq, decide_eq_true_eq] at plain
  exact Char.utf8Size_eq_one_iff.2 (UInt32.le_trans plain.2 (by decide))

/-- What is left without a plus sign tells all about the text but whether the sign was there. -/
theorem dropPlus_cases (text : List Char) :
    text = dropPlus text ∨ text = '+' :: dropPlus text := by
  cases text with
  | nil => exact .inl rfl
  | cons first rest =>
      by_cases plus : first = '+'
      · subst plus
        exact .inr rfl
      · left
        simp [dropPlus, plus]

theorem dropPlus_append (nonempty : text ≠ []) (more : List Char) :
    dropPlus (text ++ more) = dropPlus text ++ more := by
  cases text with
  | nil => exact absurd rfl nonempty
  | cons first rest =>
      by_cases plus : first = '+'
      · subst plus
        rfl
      · simp [dropPlus, plus]

theorem length_le_dropPlus (text : List Char) : text.length ≤ (dropPlus text).length + 1 := by
  obtain same | signed := dropPlus_cases text
  · rw [← same]
    exact Nat.le_succ _
  · exact Nat.le_of_eq (congrArg List.length signed)

/-- Behind a plus sign or without one, a run of digits has no other character. -/
theorem mem_cases_of_isDigits (plain : IsDigits (dropPlus text)) {character : Char}
    (member : character ∈ text) : character = '+' ∨ character.isDigit = true := by
  obtain same | signed := dropPlus_cases text
  · rw [same] at member
    exact .inr (plain character member)
  · rw [signed, List.mem_cons] at member
    exact member.imp_right (plain character)

/-- A number with or without a plus sign has no other characters. -/
theorem not_mem_of_isDigits (plain : IsDigits (dropPlus text)) {character : Char}
    (notPlus : character ≠ '+') (notDigit : character.isDigit = false) : character ∉ text := by
  intro member
  obtain plus | digit := mem_cases_of_isDigits plain member
  · exact notPlus plus
  · rw [notDigit] at digit
    cases digit

end Text

namespace Amount

open Text

variable {text whole fraction : List Char} {tokens rest : Nat} {amount : Amount}

theorem byteLength_cons (first : Char) (rest : List Char) :
    byteLength (first :: rest) = first.utf8Size + byteLength rest := by
  rw [byteLength, String.ofList_cons, String.utf8ByteSize_append, String.utf8ByteSize_singleton,
    byteLength]

theorem length_le_byteLength (text : List Char) : text.length ≤ byteLength text := by
  induction text with
  | nil => exact Nat.zero_le _
  | cons first rest inductionHypothesis =>
      have positive := first.utf8Size_pos
      rw [byteLength_cons, List.length_cons]
      omega

/-- A text of narrow characters has as many bytes as characters. -/
theorem byteLength_eq_length (narrow : ∀ character ∈ text, character.utf8Size = 1) :
    byteLength text = text.length := by
  induction text with
  | nil => rfl
  | cons first rest inductionHypothesis =>
      rw [List.forall_mem_cons] at narrow
      rw [byteLength_cons, narrow.1, inductionHypothesis narrow.2, List.length_cons, Nat.add_comm]

/-- A number before the point: nothing, or digits with or without one plus sign before them. -/
def IsWhole (text : List Char) : Prop := text = [] ∨ dropPlus text ≠ [] ∧ IsDigits (dropPlus text)

/-- The part before the point has nothing but digits and a plus sign. -/
theorem IsWhole.not_mem (readable : IsWhole text) {character : Char} (notPlus : character ≠ '+')
    (notDigit : character.isDigit = false) : character ∉ text := by
  obtain rfl | ⟨-, plain⟩ := readable
  · exact List.not_mem_nil
  · exact not_mem_of_isDigits plain notPlus notDigit

/-- A text in two parts, what stands before a point and what stands after it. Without a point nothing
stands after it. -/
def Parts (text whole fraction : List Char) : Prop :=
  text = whole ∧ fraction = [] ∨ text = whole ++ '.' :: fraction

/-- An amount that can be read does not begin with a minus sign. -/
theorem IsWhole.head?_ne_minus (readable : IsWhole whole) (parts : Parts text whole fraction) :
    text.head? ≠ some '-' := by
  intro negative
  cases whole with
  | nil =>
      obtain ⟨rfl, -⟩ | rfl := parts
      · cases negative
      · cases negative
  | cons first rest =>
      have minus : first = '-' := by
        obtain ⟨rfl, -⟩ | rfl := parts
        · exact Option.some.inj negative
        · exact Option.some.inj negative
      subst minus
      exact readable.not_mem (by decide) (by decide) List.mem_cons_self

/-- The part before the point is read exactly if it is empty or a number of 64 bits. -/
theorem whole?_eq_some : whole? text = some tokens ↔
    IsWhole text ∧ tokens = digitsValue (dropPlus text) ∧ tokens < 0x10000000000000000 := by
  unfold whole? IsWhole
  cases text with
  | nil =>
      change some 0 = some tokens ↔ _ ∧ tokens = 0 ∧ _
      constructor
      · rintro ⟨⟩
        exact ⟨.inl rfl, rfl, by decide⟩
      · rintro ⟨-, rfl, -⟩
        rfl
  | cons first rest =>
      rw [List.isEmpty_cons, if_neg Bool.false_ne_true, unsigned?_eq, Option.filter_eq_some_iff,
        digits?_eq_some, decide_eq_true_eq, or_iff_right (List.cons_ne_nil _ _)]
      simp only [and_assoc]

/-- A fraction is filled up to six places. A plus sign in front takes one of them. -/
theorem fraction?_eq_some (short : text.length ≤ 6) : fraction? text = some rest ↔
    IsDigits (dropPlus text) ∧
      rest = digitsValue (dropPlus text) * 10 ^ (6 - text.length) := by
  cases text with
  | nil =>
      change some 0 = some rest ↔ IsDigits [] ∧ rest = 0 * 10 ^ 6
      rw [Nat.zero_mul, Option.some.injEq, eq_comm]
      exact (and_iff_right (List.forall_mem_nil _)).symm
  | cons first others =>
      have filled : dropPlus (first :: others ++ List.replicate (6 - (first :: others).length) '0') =
          dropPlus (first :: others) ++ List.replicate (6 - (first :: others).length) '0' :=
        dropPlus_append (List.cons_ne_nil _ _) _
      have places : dropPlus (first :: others) ++
          List.replicate (6 - (first :: others).length) '0' ≠ [] := by
        have longer := length_le_dropPlus (first :: others)
        intro none
        have nothing := congrArg List.length none
        rw [List.length_append, List.length_replicate, List.length_nil] at nothing
        omega
      rw [fraction?, List.isEmpty_cons, if_neg Bool.false_ne_true, unsigned?_eq, filled,
        digits?_eq_some, and_iff_right places, isDigits_append, and_iff_left (isDigits_zeros _),
        digitsValue_append_zeros]

theorem splitAtPoint_cons {first : Char} (different : first ≠ '.') (rest : List Char) :
    splitAtPoint (first :: rest) = (first :: (splitAtPoint rest).1, (splitAtPoint rest).2) := by
  simp [splitAtPoint, different]

/-- What is cut at a point was joined there. -/
theorem parts_splitAtPoint (text : List Char) :
    Parts text (splitAtPoint text).1 (splitAtPoint text).2 := by
  induction text with
  | nil => exact .inl ⟨rfl, rfl⟩
  | cons first rest inductionHypothesis =>
      by_cases point : first = '.'
      · subst point
        exact .inr rfl
      · rw [splitAtPoint_cons point]
        exact inductionHypothesis.imp (And.imp_left (congrArg _)) (congrArg _)

/-- What is joined at the first point is cut there. -/
theorem splitAtPoint_eq (unpointed : '.' ∉ whole) (parts : Parts text whole fraction) :
    splitAtPoint text = (whole, fraction) := by
  induction whole generalizing text with
  | nil =>
      obtain ⟨rfl, rfl⟩ | rfl := parts
      · rfl
      · rfl
  | cons first rest inductionHypothesis =>
      rw [List.mem_cons, not_or] at unpointed
      have different : first ≠ '.' := fun same => unpointed.1 same.symm
      obtain ⟨rfl, rfl⟩ | rfl := parts
      · rw [splitAtPoint_cons different, inductionHypothesis unpointed.2 (.inl ⟨rfl, rfl⟩)]
      · rw [List.cons_append, splitAtPoint_cons different,
          inductionHypothesis unpointed.2 (.inr rfl)]

/-- The checks that a text passes before it is an amount. -/
theorem ofChars_checks {given : List Char} : ofChars given = .ok amount ↔
    (trim given).head? ≠ some '-' ∧ '.' ∉ (splitAtPoint (trim given)).2 ∧
      byteLength (splitAtPoint (trim given)).2 ≤ 6 ∧
      ∃ tokens rest, whole? (splitAtPoint (trim given)).1 = some tokens ∧
        fraction? (splitAtPoint (trim given)).2 = some rest ∧
        ofBase? (tokens * 1000000 + rest) = some amount := by
  unfold ofChars
  simp only [Guard.refuse_eq_ok, List.contains_iff_mem, gt_iff_lt, Nat.not_lt]
  refine and_congr_right fun _ => and_congr_right fun _ => and_congr_right fun _ => ?_
  -- the kernel counts a literal factor down one by one, so the proof does not let it see the million
  obtain ⟨million, same⟩ : ∃ million, million = 1000000 := ⟨_, rfl⟩
  rw [← same]
  cases whole? (splitAtPoint (trim given)).1 with
  | none => simp [Guard.throw_ne_ok]
  | some tokens =>
      cases fraction? (splitAtPoint (trim given)).2 with
      | none => simp [Guard.throw_ne_ok]
      | some rest =>
          simp only [Option.some.injEq, exists_and_left, exists_eq_left']
          cases ofBase? (tokens * million + rest) with
          | none => simp [Guard.throw_ne_ok]
          | some known => simp [pure, Except.pure]

/-- A text is read as an amount exactly if, without the white space around it, it consists of whole
tokens and up to six places, each with or without a plus sign in front, and their number fits. -/
theorem ofChars_eq_ok {given : List Char} : ofChars given = .ok amount ↔
    ∃ whole fraction, Parts (trim given) whole fraction ∧
      IsWhole whole ∧ IsDigits (dropPlus fraction) ∧ fraction.length ≤ 6 ∧
      amount.base = digitsValue (dropPlus whole) * 1000000 +
        digitsValue (dropPlus fraction) * 10 ^ (6 - fraction.length) := by
  rw [ofChars_checks]
  constructor
  · rintro ⟨-, -, short, tokens, rest, readWhole, readFraction, base⟩
    obtain ⟨readable, rfl, -⟩ := whole?_eq_some.1 readWhole
    have places := (length_le_byteLength _).trans short
    obtain ⟨plain, rfl⟩ := (fraction?_eq_some places).1 readFraction
    exact ⟨_, _, parts_splitAtPoint _, readable, plain, places, ofBase?_eq_some.1 base⟩
  · rintro ⟨whole, fraction, parts, readable, plain, short, base⟩
    have cut := splitAtPoint_eq (readable.not_mem (by decide) (by decide)) parts
    have narrow : byteLength fraction = fraction.length := by
      apply byteLength_eq_length
      intro character member
      obtain rfl | digit := mem_cases_of_isDigits plain member
      · rfl
      · exact utf8Size_of_isDigit digit
    have fits : digitsValue (dropPlus whole) < 0x10000000000000000 := by
      have whole := amount.base_lt
      omega
    rw [cut]
    exact ⟨readable.head?_ne_minus parts, not_mem_of_isDigits plain (by decide) (by decide),
      narrow ▸ short, _, _, whole?_eq_some.2 ⟨readable, rfl, fits⟩,
      (fraction?_eq_some short).2 ⟨plain, rfl⟩, ofBase?_eq_some.2 base⟩

/-- A text that is read as an amount is, without the white space around it, a decimal number of
whole tokens, and the amount is exactly its value. There is one exception: right behind the point a
plus sign is read as well, and takes the first of the six places away from the digits after it. -/
theorem decimal_of_ofText {given : String} (read : ofText given = .ok amount) :
    ∃ whole fraction, Parts (trim given.toList) whole fraction ∧
      IsWhole whole ∧ fraction.length ≤ 6 ∧
      (IsDigits fraction ∧ amount.base = digitsValue (dropPlus whole) * 1000000 +
          digitsValue fraction * 10 ^ (6 - fraction.length) ∨
        ∃ digits, fraction = '+' :: digits ∧ IsDigits digits ∧
          amount.base = digitsValue (dropPlus whole) * 1000000 +
            digitsValue digits * 10 ^ (5 - digits.length)) := by
  obtain ⟨whole, fraction, parts, readable, plain, short, base⟩ := ofChars_eq_ok.1 read
  refine ⟨whole, fraction, parts, readable, short, ?_⟩
  obtain same | signed := dropPlus_cases fraction
  · rw [← same] at plain base
    exact .inl ⟨plain, base⟩
  · have places : 6 - fraction.length = 5 - (dropPlus fraction).length := by
      rw [congrArg List.length signed, List.length_cons]
      omega
    rw [places] at base
    exact .inr ⟨_, signed, plain, base⟩

theorem decimal_of_ofText_quarter :
    ofText " +1.25\n" = .ok ⟨1250000, by decide⟩ ∧
    ∃ whole fraction, Parts (trim " +1.25\n".toList) whole fraction ∧
      IsWhole whole ∧ fraction.length ≤ 6 ∧
      (IsDigits fraction ∧ 1250000 = digitsValue (dropPlus whole) * 1000000 +
          digitsValue fraction * 10 ^ (6 - fraction.length) ∨
        ∃ digits, fraction = '+' :: digits ∧ IsDigits digits ∧
          1250000 = digitsValue (dropPlus whole) * 1000000 +
            digitsValue digits * 10 ^ (5 - digits.length)) := by
  have read : ofText " +1.25\n" = .ok ⟨1250000, by decide⟩ := by decide +kernel
  exact ⟨read, decimal_of_ofText read⟩

/-- A text with a plus sign behind the point is read, although no decimal number is written so. -/
theorem plus_read_behind_point :
    ofText "1.+5" = .ok ⟨1050000, by decide⟩ ∧
    ∀ whole fraction, Parts (trim "1.+5".toList) whole fraction → IsWhole whole →
      ¬ IsDigits fraction := by
  refine ⟨by decide +kernel, ?_⟩
  intro whole fraction parts readable plain
  have cut := splitAtPoint_eq (readable.not_mem (by decide) (by decide)) parts
  have signed : splitAtPoint (trim "1.+5".toList) = (['1'], ['+', '5']) := by decide +kernel
  rw [signed, Prod.mk.injEq] at cut
  rw [← cut.2] at plain
  exact absurd (plain '+' List.mem_cons_self) (by decide)

end Amount

end ComputeMarket
