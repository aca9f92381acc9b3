import ComputeMarket.Proofs.Json.Token
import ComputeMarket.Proofs.Text.Amount

/-
This file proves that a decimal numeral is read as the amount that it spells, whenever there is such
an amount, and that written amounts are numerals that spell them.
-/

namespace ComputeMarket

open Json.Numeral (values digitsValue)

namespace Text

variable {before text after : List Char}

theorem isBlank_of_isDigit {character : Char} (plain : character.isDigit = true) :
    isBlank character = false := by
  rw [Char.isDigit, Bool.and_eq_true, decide_eq_true_eq, decide_eq_true_eq] at plain
  have least : 48 ≤ character.toNat := plain.1
  have largest : character.toNat ≤ 57 := plain.2
  simp only [isBlank, Bool.or_eq_false_iff, Bool.and_eq_false_iff, decide_eq_false_iff_not,
    beq_eq_false_iff_ne]
  omega

/-- White space around a text that has none is trimmed away. -/
theorem trim_surrounded (blankBefore : ∀ character ∈ before, isBlank character = true)
    (blankAfter : ∀ character ∈ after, isBlank character = true)
    (filled : ∀ character ∈ text, isBlank character = false) :
    trim (before ++ text ++ after) = text := by
  rw [trim, List.append_assoc, List.dropWhile_append_of_pos blankBefore]
  cases text with
  | nil => rw [List.nil_append, List.dropWhile_eq_nil_iff.2 blankAfter]; rfl
  | cons first rest =>
      have begins : ((first :: rest) ++ after).dropWhile isBlank = (first :: rest) ++ after := by
        rw [List.cons_append, List.dropWhile_cons_of_neg]
        simp [filled first List.mem_cons_self]
      have ends : (first :: rest).reverse.dropWhile isBlank = (first :: rest).reverse := by
        rw [List.dropWhile_eq_self_iff]
        intro nonempty blank
        rw [filled _ (List.mem_reverse.1 (List.getElem_mem nonempty))] at blank
        cases blank
      rw [begins, List.reverse_append, List.dropWhile_append_of_pos (by simpa using blankAfter),
        ends, List.reverse_reverse]

theorem dropPlus_of_isDigits (plain : IsDigits text) : dropPlus text = text := by
  cases text with
  | nil => rfl
  | cons first rest =>
      have different : first ≠ '+' := by
        rintro rfl
        exact absurd (plain '+' List.mem_cons_self) (by decide)
      simp [dropPlus, different]

/-- Zeros in front do not count. -/
theorem digitsValue_zeros_append (zeros : Nat) (digits : List Char) :
    digitsValue (List.replicate zeros '0' ++ digits) = digitsValue digits := by
  rw [digitsValue, values, List.map_append, List.map_replicate]
  exact Radix.value_zeros_append 10 zeros _

section Padded

variable (width number : Nat)

theorem isDigits_paddedNumeral : IsDigits (paddedNumeral width number) :=
  isDigits_append.2 ⟨isDigits_zeros _, Json.Numeral.isDigit_toDigits number⟩

/-- A padded numeral has the value of its number. -/
theorem digitsValue_paddedNumeral : digitsValue (paddedNumeral width number) = number := by
  rw [paddedNumeral, digitsValue_zeros_append, Json.Numeral.digitsValue_toDigits]

/-- A padded numeral is as long as it should be if its number fits. -/
theorem length_paddedNumeral {width number : Nat} (positive : 0 < width)
    (fits : number < 10 ^ width) : (paddedNumeral width number).length = width := by
  have short := (Nat.length_toDigits_le_iff (by decide) positive).2 fits
  rw [paddedNumeral, List.length_append, List.length_replicate]
  omega

end Padded

end Text

namespace Amount

open Text

/-- A decimal number between white space: digits, or digits with a point in between and at most six
of them behind it. On either side of the point there may be none. -/
structure IsNumeral (given whole fraction : List Char) : Prop where
  surrounded : ∃ before text after, given = before ++ text ++ after ∧
    (∀ character ∈ before, isBlank character = true) ∧
    (∀ character ∈ after, isBlank character = true) ∧ Parts text whole fraction
  wholeDigits : IsDigits whole
  placeDigits : IsDigits fraction
  short : fraction.length ≤ 6

/-- How many base units the digits before the point and behind it spell. -/
def baseUnits (whole fraction : List Char) : Nat :=
  digitsValue whole * 1000000 + digitsValue fraction * 10 ^ (6 - fraction.length)

variable {given text whole fraction : List Char} {amount : Amount}

theorem point_not_mem (plain : IsDigits text) : '.' ∉ text :=
  fun member => absurd (plain '.' member) (by decide)

theorem isWhole_of_isDigits (plain : IsDigits whole) : IsWhole whole := by
  unfold IsWhole
  rw [dropPlus_of_isDigits plain, and_iff_left plain]
  exact Decidable.em _

/-- A text of digits and at most one point has no white space in it. -/
theorem Parts.isBlank_eq_false (parts : Parts text whole fraction) (plainWhole : IsDigits whole)
    (plain : IsDigits fraction) : ∀ character ∈ text, isBlank character = false := by
  intro character member
  obtain ⟨rfl, -⟩ | rfl := parts
  · exact isBlank_of_isDigit (plainWhole character member)
  · rw [List.mem_append, List.mem_cons] at member
    obtain digit | rfl | digit := member
    · exact isBlank_of_isDigit (plainWhole character digit)
    · rfl
    · exact isBlank_of_isDigit (plain character digit)

/-- A text falls into two parts at its first point in one way only. -/
theorem Parts.unique {other places : List Char} (parts : Parts text whole fraction)
    (same : Parts text other places) (unpointed : '.' ∉ whole) (otherUnpointed : '.' ∉ other) :
    other = whole ∧ places = fraction := by
  have cut := splitAtPoint_eq unpointed parts
  rw [splitAtPoint_eq otherUnpointed same, Prod.mk.injEq] at cut
  exact cut

/-- A numeral is read as the amount of as many base units as it spells, and as no other. -/
theorem IsNumeral.ofChars_eq_ok (numeral : IsNumeral given whole fraction) :
    ofChars given = .ok amount ↔ amount.base = baseUnits whole fraction := by
  obtain ⟨⟨before, text, after, rfl, blankBefore, blankAfter, parts⟩, plainWhole, plain, short⟩ :=
    numeral
  rw [Amount.ofChars_eq_ok, baseUnits,
    trim_surrounded blankBefore blankAfter (parts.isBlank_eq_false plainWhole plain)]
  constructor
  · rintro ⟨other, places, same, readable, -, -, base⟩
    obtain ⟨rfl, rfl⟩ :=
      parts.unique same (point_not_mem plainWhole) (readable.not_mem (by decide) (by decide))
    rwa [dropPlus_of_isDigits plainWhole, dropPlus_of_isDigits plain] at base
  · intro base
    refine ⟨whole, fraction, parts, isWhole_of_isDigits plainWhole, ?_, short, ?_⟩
    · rwa [dropPlus_of_isDigits plain]
    · rwa [dropPlus_of_isDigits plainWhole, dropPlus_of_isDigits plain]

/-- A numeral is read exactly if it spells no more base units than the largest amount has. -/
theorem IsNumeral.readable_iff (numeral : IsNumeral given whole fraction) :
    (∃ amount, ofChars given = .ok amount) ↔ baseUnits whole fraction ≤ 0xffffffffffffffff := by
  simp only [numeral.ofChars_eq_ok]
  constructor
  · rintro ⟨amount, base⟩
    rw [← base]
    exact Nat.le_of_lt_succ amount.base_lt
  · intro fits
    exact ⟨⟨_, Nat.lt_succ_of_le fits⟩, rfl⟩

section Written

variable (amount : Amount)

theorem decimal_eq : amount.decimal = Nat.toDigits 10 amount.tokens ++
    '.' :: paddedNumeral 6 (amount.base % 1000000) := rfl

/-- The whole tokens and the six places of a written amount. -/
theorem isNumeral_decimal : IsNumeral amount.decimal (Nat.toDigits 10 amount.tokens)
    (paddedNumeral 6 (amount.base % 1000000)) where
  surrounded := ⟨[], amount.decimal, [], by simp, by simp, by simp, .inr rfl⟩
  wholeDigits := Json.Numeral.isDigit_toDigits _
  placeDigits := isDigits_paddedNumeral _ _
  short := (length_paddedNumeral (by decide) (Nat.mod_lt _ (by decide))).le

/-- The printed parts of an amount stand for the amount. -/
theorem baseUnits_decimal :
    baseUnits (Nat.toDigits 10 amount.tokens) (paddedNumeral 6 (amount.base % 1000000)) =
      amount.base := by
  have places : (paddedNumeral 6 (amount.base % 1000000)).length = 6 :=
    length_paddedNumeral (by decide) (Nat.mod_lt _ (by decide))
  rw [baseUnits, places, Json.Numeral.digitsValue_toDigits, digitsValue_paddedNumeral,
    Nat.sub_self, Nat.pow_zero, Nat.mul_one, tokens]
  exact Nat.div_add_mod' _ _

/-- There is one point in a written amount. -/
theorem count_point_decimal : amount.decimal.count '.' = 1 := by
  have numeral := isNumeral_decimal amount
  rw [decimal_eq, List.count_append, List.count_cons_self,
    List.count_eq_zero.2 (point_not_mem numeral.wholeDigits),
    List.count_eq_zero.2 (point_not_mem numeral.placeDigits)]

end Written

/-- However a written amount is cut at a point, it is cut between its tokens and its places. -/
theorem isNumeral_of_decimal_eq (written : amount.decimal = whole ++ '.' :: fraction) :
    IsNumeral amount.decimal whole fraction ∧ baseUnits whole fraction = amount.base := by
  have unpointed : '.' ∉ whole := by
    have one := count_point_decimal amount
    rw [written, List.count_append, List.count_cons_self] at one
    exact List.count_eq_zero.1 (by omega)
  have numeral := isNumeral_decimal amount
  obtain ⟨rfl, rfl⟩ := Parts.unique (.inr (decimal_eq amount)) (.inr written)
    (point_not_mem numeral.wholeDigits) unpointed
  exact ⟨numeral, baseUnits_decimal amount⟩

/-- Zeros behind the last place change nothing. -/
theorem baseUnits_append_zeros {zeros : Nat} (short : fraction.length + zeros ≤ 6) :
    baseUnits whole (fraction ++ List.replicate zeros '0') = baseUnits whole fraction := by
  have places : 6 - fraction.length =
      zeros + (6 - (fraction ++ List.replicate zeros '0').length) := by
    rw [List.length_append, List.length_replicate]
    omega
  rw [baseUnits, baseUnits, digitsValue_append_zeros, places, Nat.pow_add, Nat.mul_assoc]

/-- A written amount is read back without the zeros at its end, and without the point when nothing
is left behind it. -/
theorem ofChars_of_decimal_eq {zeros : Nat}
    (written : amount.decimal = whole ++ '.' :: (fraction ++ List.replicate zeros '0'))
    (parts : Parts text whole fraction) : ofChars text = .ok amount := by
  obtain ⟨numeral, base⟩ := isNumeral_of_decimal_eq written
  have short := numeral.short
  rw [List.length_append, List.length_replicate] at short
  have cut : IsNumeral text whole fraction :=
    { surrounded := ⟨[], text, [], by simp, by simp, by simp, parts⟩
      wholeDigits := numeral.wholeDigits
      placeDigits := (isDigits_append.1 numeral.placeDigits).1
      short := Nat.le_of_add_right_le short }
  rw [cut.ofChars_eq_ok, ← base, baseUnits_append_zeros short]

/-- Decimal numerals, with or without white space around them, are read exactly if the base units
that they spell fit, and then as so many. A written amount is read back without its unit, with all
of its places or without zeros at their end. -/
theorem ofText_numerals :
    (∀ (given : String) (whole fraction : List Char), IsNumeral given.toList whole fraction →
      ((∃ amount, ofText given = .ok amount) ↔ baseUnits whole fraction ≤ 0xffffffffffffffff) ∧
      ∀ amount, ofText given = .ok amount → amount.base = baseUnits whole fraction) ∧
    (∀ amount : Amount, ∃ shown, amount.text = shown ++ " HYPER" ∧ ofText shown = .ok amount) ∧
    ∀ (amount : Amount) (text whole fraction : List Char) (zeros : Nat),
      amount.text =
        String.ofList (whole ++ '.' :: (fraction ++ List.replicate zeros '0')) ++ " HYPER" →
      Parts text whole fraction → ofText (String.ofList text) = .ok amount := by
  refine ⟨?_, ?_, ?_⟩
  · intro given whole fraction numeral
    exact ⟨numeral.readable_iff, fun amount => numeral.ofChars_eq_ok.1⟩
  · intro amount
    refine ⟨String.ofList amount.decimal, rfl, ?_⟩
    rw [ofText, String.toList_ofList]
    exact (isNumeral_decimal amount).ofChars_eq_ok.2 (baseUnits_decimal amount).symm
  · intro amount text whole fraction zeros written parts
    have decimal : amount.decimal =
        whole ++ '.' :: (fraction ++ List.replicate zeros '0') := by
      have same := congrArg String.toList written
      simp only [Amount.text, String.toList_append, String.toList_ofList] at same
      exact List.append_cancel_right same
    rw [ofText, String.toList_ofList]
    exact ofChars_of_decimal_eq decimal parts

/-- The largest amount is read with zeros in front and white space around it, one base unit more is
not, and half a token needs no more than one place. -/
theorem ofText_numerals_largest :
    IsNumeral "\t018446744073709.551615 ".toList "018446744073709".toList "551615".toList ∧
    (∃ amount, ofText "\t018446744073709.551615 " = .ok amount ∧
      amount.base = 0xffffffffffffffff) ∧
    IsNumeral "18446744073709.551616".toList "18446744073709".toList "551616".toList ∧
    (¬ ∃ amount, ofText "18446744073709.551616" = .ok amount) ∧
    (⟨2500000, by decide⟩ : Amount).text =
      String.ofList (['2'] ++ '.' :: (['5'] ++ List.replicate 5 '0')) ++ " HYPER" ∧
    ofText "2.5" = .ok ⟨2500000, by decide⟩ := by
  obtain ⟨numerals, -, cut⟩ := ofText_numerals
  have fits : IsNumeral "\t018446744073709.551615 ".toList "018446744073709".toList
      "551615".toList :=
    { surrounded := ⟨['\t'], "018446744073709.551615".toList, [' '], by decide +kernel,
        List.all_eq_true.1 (by decide), List.all_eq_true.1 (by decide), .inr (by decide +kernel)⟩
      wholeDigits := List.all_eq_true.1 (by decide +kernel)
      placeDigits := List.all_eq_true.1 (by decide +kernel)
      short := by decide +kernel }
  have exceeds : IsNumeral "18446744073709.551616".toList "18446744073709".toList
      "551616".toList :=
    { surrounded := ⟨[], "18446744073709.551616".toList, [], by decide +kernel,
        List.all_eq_true.1 (by decide), List.all_eq_true.1 (by decide), .inr (by decide +kernel)⟩
      wholeDigits := List.all_eq_true.1 (by decide +kernel)
      placeDigits := List.all_eq_true.1 (by decide +kernel)
      short := by decide +kernel }
  have spelled : baseUnits "018446744073709".toList "551615".toList = 0xffffffffffffffff := by
    decide +kernel
  have spelledMore : ¬ baseUnits "18446744073709".toList "551616".toList ≤ 0xffffffffffffffff := by
    decide +kernel
  have written : (⟨2500000, by decide⟩ : Amount).text =
      String.ofList (['2'] ++ '.' :: (['5'] ++ List.replicate 5 '0')) ++ " HYPER" := by
    decide +kernel
  obtain ⟨amount, read⟩ := (numerals _ _ _ fits).1.2 spelled.le
  have base := (numerals _ _ _ fits).2 amount read
  rw [spelled] at base
  exact ⟨fits, ⟨amount, read, base⟩, exceeds,
    fun found => spelledMore ((numerals _ _ _ exceeds).1.1 found), written,
    cut _ _ _ _ 5 written (.inr rfl)⟩

end Amount

end ComputeMarket
