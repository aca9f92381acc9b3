import ComputeMarket.Json.Token
import ComputeMarket.Json.Writer
import Mathlib.Data.List.TakeWhile
import Mathlib.Data.Nat.Digits.Defs

/-
This file proves that the lexer cuts written numerals, words and strings into the tokens that they
stand for, whatever text comes after them.
-/

namespace ComputeMarket.Json

namespace Numeral

/-- The decimal digits of a number have its value. -/
theorem digitsValue_toDigits (number : Nat) : digitsValue (Nat.toDigits 10 number) = number := by
  have same (digits : List Char) (start : Nat) :
      (values digits).foldl (fun number digit => number * 10 + digit) start =
        Nat.ofDigitChars 10 digits start := by
    induction digits generalizing start with
    | nil => rfl
    | cons first rest inductionHypothesis =>
        rw [Nat.ofDigitChars_cons, ← inductionHypothesis, Nat.mul_comm]
        rfl
  exact (same _ 0).trans (Nat.ofDigitChars_toDigits (by decide) (by decide))

/-- Only zero is written with a leading zero. -/
theorem head_toDigits {number : Nat} (positive : 0 < number) :
    (Nat.toDigits 10 number).head? ≠ some '0' := by
  induction number using Nat.strongRecOn with
  | ind number inductionHypothesis =>
      by_cases single : number < 10
      · have all : ∀ digit < 10, 0 < digit → some digit.digitChar ≠ some '0' := by decide
        rw [Nat.toDigits_of_lt_base single]
        exact all number single positive
      · have fewer := inductionHypothesis (number / 10) (by omega) (by omega)
        rw [Nat.toDigits_eq_if (by decide), if_neg single, List.head?_append,
          Option.or_of_isSome (by simp [Nat.toDigits_ne_nil])]
        exact fewer

theorem isDigit_toDigits (number : Nat) :
    ∀ digit ∈ Nat.toDigits 10 number, digit.isDigit = true :=
  fun _ => Nat.isDigit_of_mem_toDigits (by decide) (by decide)

/-- Only zero is written with a zero in front. -/
theorem length_of_leading_zero {number : Nat}
    (leading : (Nat.toDigits 10 number).head? = some '0') : (Nat.toDigits 10 number).length = 1 := by
  rcases Nat.eq_zero_or_pos number with rfl | positive
  · rfl
  · exact absurd leading (head_toDigits positive)

theorem takeWhile_toDigits (number : Nat) :
    (Nat.toDigits 10 number).takeWhile Char.isDigit = Nat.toDigits 10 number :=
  List.takeWhile_eq_self_iff.2 (isDigit_toDigits number)

theorem dropWhile_toDigits (number : Nat) :
    (Nat.toDigits 10 number).dropWhile Char.isDigit = [] :=
  List.dropWhile_eq_nil_iff.2 (isDigit_toDigits number)

/-- A minus sign and digits are read as a negative integer. -/
theorem token?_negative {number : Nat} (positive : number ≠ 0) :
    token? ('-' :: Nat.toDigits 10 number) = some (.integer (-(number : Int))) := by
  simp [token?, takeWhile_toDigits, dropWhile_toDigits, digitsValue_toDigits, positive]
  exact length_of_leading_zero

theorem token?_toDigits (number : Nat) :
    token? (Nat.toDigits 10 number) = some (.integer number) := by
  unfold token?
  split
  rename_i negative unsigned sign
  split at sign
  · rename_i rest signed
    have digit := isDigit_toDigits number '-' (by rw [signed]; exact List.mem_cons_self)
    cases digit
  · cases sign
    simp [takeWhile_toDigits, dropWhile_toDigits, digitsValue_toDigits]
    exact length_of_leading_zero

/-- A written integer is read as the integer. -/
theorem token?_integerChars (value : Int) : token? (integerChars value) = some (.integer value) := by
  unfold integerChars
  split
  · rename_i negative
    rw [token?_negative (by omega)]
    congr
    omega
  · rename_i nonnegative
    rw [token?_toDigits]
    congr
    omega

end Numeral

/-- Text cannot go on with a word or a numeral. -/
def Breaks (rest : List Char) : Prop :=
  ∀ character, rest.head? = some character → isWordCharacter character = false

/-- Text breaks in front of a character that belongs to no word. -/
theorem breaks_cons {character : Char} {rest : List Char}
    (breaks : isWordCharacter character = false) : Breaks (character :: rest) := by
  rintro other ⟨⟩
  exact breaks

namespace Lexer

/-- The tokens that a lexer has at the end of a text. -/
def run (lexer : Lexer) (text : List Char) : Option (List Token) := do
  (← text.foldlM step lexer).finish

theorem run_cons (lexer : Lexer) (character : Char) (rest : List Char) :
    lexer.run (character :: rest) = (lexer.step character).bind fun next => next.run rest := by
  rw [run, List.foldlM_cons]
  cases lexer.step character <;> rfl

variable {tokens : List Token} {rest : List Char}

/-- A character that is a token by itself. -/
theorem run_mark {character : Char} {token : Token}
    (mark : begin tokens character = some ⟨token :: tokens, .between⟩) :
    run ⟨tokens, .between⟩ (character :: rest) = run ⟨token :: tokens, .between⟩ rest := by
  rw [run_cons, step, mark, Option.bind_some]

theorem begin_blank {character : Char} (blank : isBlank character = true) :
    begin tokens character = some ⟨tokens, .between⟩ := by
  simp only [isBlank, Bool.or_eq_true, beq_iff_eq] at blank
  rcases blank with ((rfl | rfl) | rfl) | rfl <;> rfl

/-- Blanks between tokens are passed over. -/
theorem run_blanks {blanks : List Char} (blank : ∀ character ∈ blanks, isBlank character = true) :
    run ⟨tokens, .between⟩ (blanks ++ rest) = run ⟨tokens, .between⟩ rest := by
  induction blanks with
  | nil => rfl
  | cons first others inductionHypothesis =>
      rw [List.forall_mem_cons] at blank
      rw [List.cons_append, run_cons, step, begin_blank blank.1, Option.bind_some]
      exact inductionHypothesis blank.2

theorem begin_word {character : Char} (word : isWordCharacter character = true) :
    begin tokens character = some ⟨tokens, .word [character]⟩ := by
  unfold begin
  split
  all_goals first
    | exact absurd word (by decide)
    | skip
  have notBlank : isBlank character = false := by
    rw [Bool.eq_false_iff]
    intro blank
    simp only [isBlank, Bool.or_eq_true, beq_iff_eq] at blank
    rcases blank with ((rfl | rfl) | rfl) | rfl <;> exact absurd word (by decide)
  rw [notBlank, word]
  rfl

/-- A word that text does not go on with is finished, whatever comes next. -/
theorem run_word (word : List Char) {token : Token} (nonempty : word ≠ [])
    (inside : ∀ character ∈ word, isWordCharacter character = true)
    (read : wordToken? word = some token) (breaks : Breaks rest) :
    run ⟨tokens, .between⟩ (word ++ rest) = run ⟨token :: tokens, .between⟩ rest := by
  have finished (before : List Char) (whole : before.reverse = word) :
      run ⟨tokens, .word before⟩ rest = run ⟨token :: tokens, .between⟩ rest := by
    subst whole
    cases rest with
    | nil => simp [run, finish, read]
    | cons character others =>
        have outside := breaks character rfl
        rw [run_cons, run_cons, step, step]
        simp [outside, read]
  have continued (before later : List Char) (whole : before.reverse ++ later = word)
      (letters : ∀ character ∈ later, isWordCharacter character = true) :
      run ⟨tokens, .word before⟩ (later ++ rest) = run ⟨token :: tokens, .between⟩ rest := by
    induction later generalizing before with
    | nil => exact finished before (by simpa using whole)
    | cons first others inductionHypothesis =>
        rw [List.forall_mem_cons] at letters
        rw [List.cons_append, run_cons, step]
        simp only [letters.1, if_true, Option.bind_some]
        exact inductionHypothesis (first :: before) (by simpa using whole) letters.2
  cases word with
  | nil => exact absurd rfl nonempty
  | cons first others =>
      rw [List.forall_mem_cons] at inside
      rw [List.cons_append, run_cons, step, begin_word inside.1, Option.bind_some]
      exact continued [first] others rfl inside.2

end Lexer

theorem hexDigit?_hexLetter {digit : Nat} (small : digit < 16) :
    hexDigit? (hexLetter digit) = some digit := by
  have all : ∀ digit < 16, hexDigit? (hexLetter digit) = some digit := by decide +kernel
  exact all digit small

/-- A control character that was spelled as a number comes into the text as itself. -/
theorem OpenString.pushUnit_control {character : Char} (control : character.toNat < 0x20)
    (before : List Char) (inside : Escape) :
    pushUnit ⟨some before, none, inside⟩ character.toNat =
      ⟨some (character :: before), none, .outside⟩ := by
  have notHigh : ¬ (0xd800 ≤ character.toNat ∧ character.toNat ≤ 0xdbff) := by omega
  have notLow : ¬ (0xdc00 ≤ character.toNat ∧ character.toNat ≤ 0xdfff) := by omega
  simp [pushUnit, push, notHigh, notLow]

namespace Lexer

variable {tokens : List Token} {rest : List Char}

/-- A character inside a string is read back from its escaped form. -/
theorem run_escape (before : List Char) (character : Char) :
    run ⟨tokens, .string ⟨some before, none, .outside⟩⟩ (escape character ++ rest) =
      run ⟨tokens, .string ⟨some (character :: before), none, .outside⟩⟩ rest := by
  unfold escape
  split
  · rfl
  · rfl
  · rfl
  · rfl
  · rfl
  · rfl
  · rfl
  · rename_i quote backslash _ _ _ _ _
    dsimp only
    split
    · rename_i control
      have high : hexDigit? (hexLetter (character.toNat / 16)) = some (character.toNat / 16) :=
        hexDigit?_hexLetter (by omega)
      have low : hexDigit? (hexLetter (character.toNat % 16)) = some (character.toNat % 16) :=
        hexDigit?_hexLetter (by omega)
      have zero : hexDigit? '0' = some 0 := rfl
      have code : character.toNat / 16 * 16 + character.toNat % 16 = character.toNat := by omega
      simp only [List.cons_append, List.nil_append, run_cons, step, continueString]
      simp [zero, high, low, code, OpenString.pushUnit_control control]
    · rename_i printed
      rw [List.singleton_append, run_cons, step]
      dsimp only [continueString]
      rw [if_neg quote, if_neg backslash, if_neg printed]
      rfl

/-- Escaped text is read back, character by character. -/
theorem run_flatMap_escape (before text : List Char) :
    run ⟨tokens, .string ⟨some before, none, .outside⟩⟩ (text.flatMap escape ++ rest) =
      run ⟨tokens, .string ⟨some (text.reverse ++ before), none, .outside⟩⟩ rest := by
  induction text generalizing before with
  | nil => rfl
  | cons first others inductionHypothesis =>
      rw [List.flatMap_cons, List.append_assoc, run_escape, inductionHypothesis]
      simp

theorem stringChars_some (text : String) :
    stringChars (some text) = '"' :: text.toList.flatMap escape ++ ['"'] := rfl

/-- A written string is one token. -/
theorem run_stringChars (text : Option String) :
    run ⟨tokens, .between⟩ (stringChars text ++ rest) =
      run ⟨.string text :: tokens, .between⟩ rest := by
  cases text with
  | none =>
      have written : stringChars none = ['"', '\\', 'u', 'd', '8', '0', '0', '"'] := by
        decide +kernel
      rw [written]
      rfl
  | some text =>
      have opened : run ⟨tokens, .between⟩ (stringChars (some text) ++ rest) =
          run ⟨tokens, .string ⟨some [], none, .outside⟩⟩
            (text.toList.flatMap escape ++ ('"' :: rest)) := by
        rw [stringChars_some, List.cons_append, List.cons_append, List.append_assoc, run_cons]
        simp [step, begin, OpenString.empty]
      have closed : run ⟨tokens, .string ⟨some (text.toList.reverse ++ []), none, .outside⟩⟩
          ('"' :: rest) = run ⟨.string text :: tokens, .between⟩ rest := by
        rw [run_cons, step]
        simp [continueString, OpenString.finish]
      rw [opened, run_flatMap_escape, closed]

end Lexer

end ComputeMarket.Json
