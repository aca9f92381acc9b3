import ComputeMarket.CommandLine.Scan
import ComputeMarket.Proofs.CommandLine.Field

/-
This file proves that one level of a command line finds in written arguments the values that were
written, each in the field that it was meant for, whatever the order of the options.
-/

namespace ComputeMarket.CommandLine

section Forms

variable {given : String}

/-- The values that stand without a name on command lines. -/
def Value.IsWord : Value → Prop
  | .key _ | .amount _ => True
  | _ => False

/-- No text of a key or of an amount can be taken for an option. -/
theorem Value.head?_ne_dash {value : Value} (word : value.IsWord)
    (spelled : value.SpelledBy given) : given.toList.head? ≠ some '-' := by
  suffices absent : '-' ∉ given.toList from fun dash => absent (List.mem_of_head? dash)
  cases value with
  | key id =>
      obtain rfl : given = id.text := spelled
      have letters : ∀ digit < 58, Base58.letter digit ≠ '-' := by decide +kernel
      rw [Key.text, String.toList_ofList, Key.chars, Base58.encode_eq, List.mem_map]
      rintro ⟨digit, inside, dash⟩
      exact letters digit (Base58.lt_of_mem_spell id.word.number_lt inside) dash
  | amount tokens =>
      obtain ⟨whole, fraction, numeral, -⟩ := spelled
      obtain ⟨before, text, after, same, blankBefore, blankAfter, parts⟩ := numeral.surrounded
      rw [same, List.mem_append, List.mem_append]
      rintro ((dash | dash) | dash)
      · exact absurd (blankBefore '-' dash) (by decide)
      · obtain ⟨rfl, -⟩ | rfl := parts
        · exact absurd (numeral.wholeDigits '-' dash) (by decide)
        · rw [List.mem_append, List.mem_cons] at dash
          obtain digit | point | digit := dash
          · exact absurd (numeral.wholeDigits '-' digit) (by decide)
          · cases point
          · exact absurd (numeral.placeDigits '-' digit) (by decide)
      · exact absurd (blankAfter '-' dash) (by decide)
  | path | style | seconds | digest | byte | gpu | stake => exact word.elim

/-- A text without a dash in front is a word. -/
theorem Form.ofChars_word (word : given.toList.head? ≠ some '-') :
    Form.ofChars given.toList = .word := by
  cases characters : given.toList with
  | nil => rfl
  | cons first rest =>
      have different : first ≠ '-' := by
        rintro rfl
        exact word (by rw [characters, List.head?_cons])
      simp [Form.ofChars, different]

/-- A text of two dashes, a name, an equals sign and a value is an option with this value. -/
theorem Form.ofChars_assignment {name : String} (unmarked : '=' ∉ name.toList) :
    Form.ofChars ("--" ++ name ++ "=" ++ given).toList = .long name (some given) := by
  have characters : ("--" ++ name ++ "=" ++ given).toList =
      '-' :: '-' :: (name.toList ++ '=' :: given.toList) := by
    simp [String.toList_append]
  have plain : ∀ character ∈ name.toList, decide (character ≠ '=') = true := by
    intro character member
    exact decide_eq_true fun same => unmarked (same ▸ member)
  have named : (name.toList ++ '=' :: given.toList).takeWhile (· ≠ '=') = name.toList := by
    rw [List.takeWhile_append_of_pos plain, List.takeWhile_cons_of_neg (by simp), List.append_nil]
  have valued : (name.toList ++ '=' :: given.toList).dropWhile (· ≠ '=') = '=' :: given.toList := by
    rw [List.dropWhile_append_of_pos plain, List.dropWhile_cons_of_neg (by simp)]
  have some : name.toList ++ '=' :: given.toList ≠ [] := by simp
  rw [characters]
  -- two dashes with nothing behind them are another form
  generalize name.toList ++ '=' :: given.toList = body at named valued some ⊢
  cases body with
  | nil => exact absurd rfl some
  | cons first rest =>
      simp only [Form.ofChars, named, valued, String.ofList_toList]

end Forms

/-- What the names of a level leave open: options are told from requests and from their values, and
no command is written like an option. -/
structure Level.IsPlain (level : Level) : Prop where
  options : ∀ option ∈ level.options,
    '=' ∉ option.1.toList ∧ option.1 ≠ "help" ∧ option.1 ≠ "version"
  commands : ∀ name ∈ level.commands, name.toList.head? ≠ some '-'

namespace Reading

variable {level : Level} {reading : Reading} {values : Field → Option Value} {fields : List Field}
  {field : Field} {value : Value} {given : String}

/-- What a reading has found, and for which fields words are still to come. The text of a word is
looked at with the next argument only, so that the draft is the settled one. The next argument is
not the value of an option. -/
structure Shows (reading : Reading) (values : Field → Option Value) (fields : List Field) :
    Prop where
  settle : ∃ draft, reading.settle = .ok { reading with draft, pending := none } ∧
    draft.value? = values
  words : reading.words = fields
  onlyWords : reading.onlyWords = false
  isAwaiting : reading.isAwaiting = false

theorem shows_start (level : Level) : (start level).Shows (fun _ => none) level.words where
  settle := ⟨{}, rfl, by funext field; cases field <;> rfl⟩
  words := rfl
  onlyWords := rfl
  isAwaiting := rfl

/-- An option with its value is found in its field. -/
theorem Shows.takeOption (shows : reading.Shows values fields) (takes : field.Takes value)
    (spelled : value.SpelledBy given) (absent : values field = none) :
    ∃ next, reading.takeOption field (some given) = .ok next ∧
      next.Shows (Function.update values field (some value)) fields := by
  obtain ⟨draft, settled, rfl⟩ := shows.settle
  obtain ⟨filled, read, same⟩ := field.give_of_spelled takes spelled absent
  refine ⟨{ reading with draft := filled, pending := none }, ?_, ⟨filled, rfl, same⟩, shows.words,
    shows.onlyWords, rfl⟩
  rw [Reading.takeOption, settled]
  change (do return { reading with draft := ← field.give (some given) draft, pending := none }) = _
  rw [read]
  rfl

/-- A word is found in the field that comes next. -/
theorem Shows.takeWord (shows : reading.Shows values (field :: fields)) (level : Level)
    (takes : field.Takes value) (spelled : value.SpelledBy given) (absent : values field = none) :
    ∃ next, reading.takeWord level given = .ok next ∧
      next.Shows (Function.update values field (some value)) fields := by
  obtain ⟨draft, settled, rfl⟩ := shows.settle
  obtain ⟨filled, read, same⟩ := field.give_of_spelled takes spelled absent
  refine ⟨{ reading with draft, pending := some (field, some given), words := fields }, ?_,
    ⟨filled, ?_, same⟩, rfl, shows.onlyWords, rfl⟩
  · rw [Reading.takeWord, shows.words, settled]
    rfl
  · change (field.give (some given) draft).map _ = _
    rw [read]
    rfl

/-- An assignment is taken as the option of its name. -/
theorem take_assignment {name : String} (plain : level.IsPlain)
    (found : level.options.lookup name = some field) (mixed : reading.onlyWords = false) :
    reading.take level ("--" ++ name ++ "=" ++ given) = reading.takeOption field (some given) := by
  obtain ⟨before, after, same, -⟩ := List.lookup_eq_some_iff.1 found
  obtain ⟨unmarked, notHelp, notVersion⟩ := plain.options (name, field) (by simp [same])
  rw [take, mixed, Form.ofChars_assignment unmarked]
  simp [takeLong, notHelp, notVersion, found]

/-- A word is taken as a word, where none of the options waits for its value. -/
theorem take_word (word : given.toList.head? ≠ some '-') (mixed : reading.onlyWords = false)
    (free : reading.isAwaiting = false) :
    reading.take level given = reading.takeWord level given := by
  rw [take, mixed, Form.ofChars_word word]
  rw [isAwaiting] at free
  cases waiting : reading.pending with
  | none => rfl
  | some pending =>
      obtain ⟨field, _ | text⟩ := pending
      · simp [waiting] at free
      · rfl

end Reading

section Placement

variable {level : Level} {values after : Field → Option Value} {fields : List Field} {field : Field}
  {value : Value} {words : List Value} {choices before later : List Choice} {choice : Choice}

/-- The fields that words and options are for. -/
def Level.targets (level : Level) (fields : List Field) (choices : List Choice) : List Field :=
  fields ++ choices.filterMap fun choice => level.options.lookup choice.name

/-- Words and options have each a field that takes its value. No two have the same field, and none
of these fields has a value yet. -/
structure Level.Fits (level : Level) (values : Field → Option Value) (fields : List Field)
    (words : List Value) (choices : List Choice) : Prop where
  words : List.Forall₂ (fun field value => field.Takes value ∧ value.IsWord) fields words
  options : ∀ choice ∈ choices, ∃ field, level.options.lookup choice.name = some field ∧
    field.Takes choice.value
  distinct : (level.targets fields choices).Nodup
  absent : ∀ field ∈ level.targets fields choices, values field = none

/-- Each word is in its field and each option too, unless it is left out and holds without it.
All other fields are as before. -/
structure Level.Gives (level : Level) (values after : Field → Option Value) (fields : List Field)
    (words : List Value) (choices : List Choice) : Prop where
  words : List.Forall₂ (fun field value => after field = some value) fields words
  options : ∀ choice ∈ choices, ∀ field, level.options.lookup choice.name = some field →
    after field = some choice.value ∨ after field = none ∧ choice.standard = some choice.value
  others : ∀ field ∉ level.targets fields choices, after field = values field

namespace Level

theorem targets_cons :
    level.targets (field :: fields) choices = field :: level.targets fields choices := rfl

/-- The field of an option is among the targets, wherever the option stands. -/
theorem targets_middle (fields : List Field) (before later : List Choice)
    (found : level.options.lookup choice.name = some field) :
    (level.targets fields (before ++ choice :: later)).Perm
      (field :: level.targets fields (before ++ later)) := by
  simp only [targets, List.filterMap_append, List.filterMap_cons, found, ← List.append_assoc]
  exact List.perm_middle

/-- After the first word the others fit as before. -/
theorem Fits.afterWord (fits : level.Fits values (field :: fields) (value :: words) choices) :
    level.Fits (Function.update values field (some value)) fields words choices := by
  obtain ⟨outside, distinct⟩ := List.nodup_cons.1 fits.distinct
  refine ⟨(List.forall₂_cons.1 fits.words).2, fits.options, distinct, fun other target => ?_⟩
  have different : other ≠ field := fun same => outside (same ▸ target)
  rw [Function.update_of_ne different]
  exact fits.absent other (List.mem_cons_of_mem field target)

/-- After any of the options the others fit as before. -/
theorem Fits.afterOption (fits : level.Fits values fields words (before ++ choice :: later))
    (found : level.options.lookup choice.name = some field) :
    level.Fits (Function.update values field (some choice.value)) fields words
      (before ++ later) := by
  have same := targets_middle fields before later found
  obtain ⟨outside, distinct⟩ := List.nodup_cons.1 (same.nodup_iff.1 fits.distinct)
  refine ⟨fits.words, fun other member => fits.options other ?_, distinct, fun other target => ?_⟩
  · rw [List.mem_append] at member ⊢
    exact member.imp_right (List.mem_cons_of_mem choice)
  · have different : other ≠ field := fun same => outside (same ▸ target)
    rw [Function.update_of_ne different]
    exact fits.absent other (same.mem_iff.2 (List.mem_cons_of_mem field target))

/-- What is found behind a word and the word itself are found together. -/
theorem Gives.beforeWord
    (gives : level.Gives (Function.update values field (some value)) after fields words choices)
    (outside : field ∉ level.targets fields choices) :
    level.Gives values after (field :: fields) (value :: words) choices where
  words := by
    refine .cons ?_ gives.words
    rw [gives.others field outside, Function.update_self]
  options := gives.options
  others other elsewhere := by
    rw [targets_cons, List.mem_cons, not_or] at elsewhere
    rw [gives.others other elsewhere.2, Function.update_of_ne elsewhere.1]

/-- What is found beside an option and the option itself are found together. -/
theorem Gives.beforeOption
    (gives : level.Gives (Function.update values field (some choice.value)) after fields words
      (before ++ later))
    (found : level.options.lookup choice.name = some field)
    (outside : field ∉ level.targets fields (before ++ later)) :
    level.Gives values after fields words (before ++ choice :: later) where
  words := gives.words
  options := by
    intro other member
    rw [List.mem_append, List.mem_cons, or_left_comm, ← List.mem_append] at member
    obtain rfl | member := member
    · intro same found'
      rw [found, Option.some.injEq] at found'
      rw [← found', gives.others field outside, Function.update_self]
      exact .inl rfl
    · exact gives.options other member
  others other elsewhere := by
    rw [(targets_middle fields before later found).mem_iff, List.mem_cons, not_or] at elsewhere
    rw [gives.others other elsewhere.2, Function.update_of_ne elsewhere.1]

/-- An option that may be absent gives its field what it is. -/
theorem Gives.of_optional {A : Type} {given : Option A} {shape : A → Value} (field : Field)
    (name : String) (gives : level.Gives (fun _ => none) after fields words choices)
    (found : level.options.lookup name = some field)
    (present : ∀ content, given = some content → { name, value := shape content } ∈ choices)
    (absent : given = none → field ∉ level.targets fields choices) :
    after field = given.map shape := by
  cases same : given with
  | none => exact gives.others field (absent same)
  | some content =>
      obtain known | ⟨-, standard⟩ := gives.options _ (present content same) field found
      · exact known
      · cases standard

end Level

end Placement

namespace Reading

variable {level : Level} {reading : Reading} {values : Field → Option Value} {fields : List Field}
  {words : List Value} {choices : List Choice} {arguments : List String}

/-- A level reads what was written and goes on with what follows. -/
theorem scan_written (plain : level.IsPlain) (written : Written words choices arguments)
    (named : words = [] ∨ level.commands = []) (fits : level.Fits values fields words choices)
    (shows : reading.Shows values fields) (rest : List String) :
    ∃ (next : Reading) (after : Field → Option Value),
      reading.scan level (arguments ++ rest) = next.scan level rest ∧ next.Shows after [] ∧
        level.Gives values after fields words choices := by
  induction written generalizing reading values fields with
  | done standard =>
      obtain rfl := List.forall₂_nil_right_iff.1 fits.words
      refine ⟨reading, values, rfl, shows, .nil, fun choice member field found => .inr ?_,
        fun _ _ => rfl⟩
      refine ⟨fits.absent field ?_, standard choice member⟩
      exact List.mem_filterMap.2 ⟨choice, member, found⟩
  | @word value words choices text arguments spelled written inductionHypothesis =>
      -- where words may stand there are no commands that they could be taken for
      have alone : level.commands = [] := named.resolve_left (List.cons_ne_nil value words)
      cases fits.words with
      | @cons field _ fields _ first others =>
          have outside := (List.nodup_cons.1 fits.distinct).1
          have absent := fits.absent field List.mem_cons_self
          obtain ⟨next, taken, showsNext⟩ := shows.takeWord level first.1 spelled absent
          obtain ⟨last, after, scanned, showsLast, gives⟩ :=
            inductionHypothesis (.inr alone) fits.afterWord showsNext
          refine ⟨last, after, ?_, showsLast, gives.beforeWord outside⟩
          have unmet : reading.meetsCommand level text = false := by
            simp [meetsCommand, alone]
          have undashed := Value.head?_ne_dash first.2 spelled
          rw [List.cons_append, scan, unmet, take_word undashed shows.onlyWords shows.isAwaiting,
            taken]
          exact scanned
  | @option words before later choice text arguments spelled written inductionHypothesis =>
      obtain ⟨field, found, takes⟩ :=
        fits.options choice (List.mem_append_right before List.mem_cons_self)
      have same := Level.targets_middle fields before later found
      have outside := (List.nodup_cons.1 (same.nodup_iff.1 fits.distinct)).1
      have absent := fits.absent field (same.mem_iff.2 List.mem_cons_self)
      obtain ⟨next, taken, showsNext⟩ := shows.takeOption takes spelled absent
      obtain ⟨last, after, scanned, showsLast, gives⟩ :=
        inductionHypothesis named (fits.afterOption found) showsNext
      refine ⟨last, after, ?_, showsLast, gives.beforeOption found outside⟩
      -- no command of a level starts with a dash
      have unmet : reading.meetsCommand level ("--" ++ choice.name ++ "=" ++ text) = false := by
        rw [meetsCommand, Bool.and_eq_false_imp]
        intro _
        rw [← Bool.not_eq_true, List.contains_iff_mem]
        intro member
        exact plain.commands _ member (by simp [String.toList_append])
      rw [List.cons_append, scan, unmet, take_assignment plain found shows.onlyWords, taken]
      exact scanned

end Reading

end ComputeMarket.CommandLine
