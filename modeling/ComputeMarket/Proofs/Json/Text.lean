import ComputeMarket.Json.Reader
import ComputeMarket.Proofs.Json.Token

/-
This file proves that a written JSON value is read back as the value: the lexer finds its tokens,
and the reader puts them together again.
-/

namespace ComputeMarket.Json

mutual

/-- The tokens of a value. -/
def tokens : Json → List Token
  | null => [.null]
  | boolean value => [.boolean value]
  | integer value => [.integer value]
  | real inRange => [.real inRange]
  | string text => [.string text]
  | array [] => [.openArray, .closeArray]
  | array (first :: items) => .openArray :: (tokens first ++ (itemTokens items ++ [.closeArray]))
  | object [] => [.openObject, .closeObject]
  | object ((name, value) :: members) =>
    .openObject :: .string name :: .colon ::
      (tokens value ++ (memberTokens members ++ [.closeObject]))

/-- The tokens of the items after the first one. -/
def itemTokens : List Json → List Token
  | [] => []
  | item :: items => .comma :: (tokens item ++ itemTokens items)

/-- The tokens of the members after the first one. -/
def memberTokens : List (Option String × Json) → List Token
  | [] => []
  | (name, value) :: members =>
    .comma :: .string name :: .colon :: (tokens value ++ memberTokens members)

end

mutual

/-- Text in front of which a value is written stays as it is. -/
theorem charsOnto_append (layout : Layout) (depth : Nat) (json : Json) (first rest : List Char) :
    charsOnto layout depth json (first ++ rest) = charsOnto layout depth json first ++ rest := by
  cases json with
  | null => rfl
  | boolean value => cases value <;> rfl
  | integer value => simp [charsOnto]
  | real inRange => cases inRange <;> rfl
  | string text => simp [charsOnto]
  | array items =>
      cases items with
      | nil => rfl
      | cons item items =>
          simp only [charsOnto, ← List.cons_append, ← List.append_assoc, itemsOnto_append,
            charsOnto_append _ _ item]
  | object members =>
      cases members with
      | nil => rfl
      | cons member members =>
          obtain ⟨name, value⟩ := member
          simp only [charsOnto, ← List.cons_append, ← List.append_assoc, membersOnto_append,
            charsOnto_append _ _ value]

/-- Text in front of which items are written stays as it is. -/
theorem itemsOnto_append (layout : Layout) (depth : Nat) (items : List Json)
    (first rest : List Char) :
    itemsOnto layout depth items (first ++ rest) = itemsOnto layout depth items first ++ rest := by
  cases items with
  | nil => rfl
  | cons item items =>
      simp only [itemsOnto, ← List.cons_append, ← List.append_assoc, itemsOnto_append _ _ items,
        charsOnto_append _ _ item]

theorem membersOnto_append (layout : Layout) (depth : Nat)
    (members : List (Option String × Json)) (first rest : List Char) :
    membersOnto layout depth members (first ++ rest) =
      membersOnto layout depth members first ++ rest := by
  cases members with
  | nil => rfl
  | cons member members =>
      obtain ⟨name, value⟩ := member
      simp only [membersOnto, ← List.cons_append, ← List.append_assoc,
        membersOnto_append _ _ members, charsOnto_append _ _ value]

end

section Lexing

open Lexer

variable {layout : Layout}

theorem isBlank_lineBreak (layout : Layout) (depth : Nat) :
    ∀ character ∈ layout.lineBreak depth, isBlank character = true := by
  cases layout with
  | compact => simp [Layout.lineBreak]
  | indented =>
      simp only [Layout.lineBreak, List.forall_mem_cons, List.mem_replicate]
      exact ⟨rfl, fun character blank => blank.2 ▸ rfl⟩

/-- Text breaks at the end of a container, with or without a new line. -/
theorem breaks_lineBreak (layout : Layout) (depth : Nat) {mark : Char} {rest : List Char}
    (breaks : isWordCharacter mark = false) : Breaks (layout.lineBreak depth ++ mark :: rest) := by
  cases layout with
  | compact => exact breaks_cons breaks
  | indented => exact breaks_cons rfl

theorem breaks_itemsOnto (layout : Layout) (depth : Nat) (items : List Json) {rest : List Char}
    (breaks : Breaks rest) : Breaks (itemsOnto layout depth items rest) := by
  cases items with
  | nil => rwa [itemsOnto]
  | cons => rw [itemsOnto]; exact breaks_cons rfl

theorem breaks_membersOnto (layout : Layout) (depth : Nat) (members : List (Option String × Json))
    {rest : List Char} (breaks : Breaks rest) : Breaks (membersOnto layout depth members rest) := by
  cases members with
  | nil => rwa [membersOnto]
  | cons => rw [membersOnto]; exact breaks_cons rfl

/-- An integer is written with digits and a sign. -/
theorem mem_integerChars {value : Int} {character : Char} (member : character ∈ integerChars value) :
    character = '-' ∨ character.isDigit = true := by
  unfold integerChars at member
  split at member
  · rcases List.mem_cons.1 member with sign | digit
    · exact .inl sign
    · exact .inr (Numeral.isDigit_toDigits value.natAbs character digit)
  · exact .inr (Numeral.isDigit_toDigits value.natAbs character member)

/-- An integer is written as one word. -/
theorem isWordCharacter_integerChars (value : Int) :
    ∀ character ∈ integerChars value, isWordCharacter character = true := by
  intro character member
  rcases mem_integerChars member with rfl | digit
  · rfl
  · simp [isWordCharacter, Char.isAlphanum, digit]

theorem integerChars_ne_nil (value : Int) : integerChars value ≠ [] := by
  unfold integerChars
  split <;> simp [Nat.toDigits_ne_nil]

/-- An integer is none of the three words. -/
theorem wordToken?_integerChars (value : Int) :
    wordToken? (integerChars value) = some (.integer value) := by
  have outside (letter : Char) {word : List Char} (member : letter ∈ word)
      (noDigit : letter.isDigit = false) (noSign : letter ≠ '-') : integerChars value ≠ word := by
    rintro rfl
    rcases mem_integerChars member with sign | digit
    · exact noSign sign
    · rw [noDigit] at digit
      cases digit
  rw [wordToken?, if_neg (outside 'n' (by decide) rfl (by decide)),
    if_neg (outside 't' (by decide) rfl (by decide)),
    if_neg (outside 'f' (by decide) rfl (by decide)), Numeral.token?_integerChars]

/-- A number in range is written as a signed zero, another as one that is too large. -/
theorem wordToken?_real :
    wordToken? ['-', '0'] = some (.real true) ∧
      wordToken? ['1', 'e', '9', '9', '9'] = some (.real false) := by
  decide +kernel

/-- Between the name of a member and its value stands a colon. -/
theorem run_separator (layout : Layout) (before : List Token) (rest : List Char) :
    run ⟨before, .between⟩ (layout.separator ++ rest) = run ⟨.colon :: before, .between⟩ rest := by
  cases layout with
  | compact => exact run_mark rfl
  | indented =>
      have blank : ∀ character ∈ [' '], isBlank character = true := List.all_eq_true.1 rfl
      exact (run_mark rfl).trans (run_blanks blank)

theorem run_boolean (depth : Nat) (value : Bool) (before : List Token) {rest : List Char}
    (breaks : Breaks rest) :
    run ⟨before, .between⟩ (charsOnto layout depth (.boolean value) rest) =
      run ⟨.boolean value :: before, .between⟩ rest := by
  cases value with
  | true =>
      rw [charsOnto]
      exact run_word ['t', 'r', 'u', 'e'] nofun (List.all_eq_true.1 rfl) rfl breaks
  | false =>
      rw [charsOnto]
      exact run_word ['f', 'a', 'l', 's', 'e'] nofun (List.all_eq_true.1 rfl) rfl breaks

theorem run_real (depth : Nat) (inRange : Bool) (before : List Token) {rest : List Char}
    (breaks : Breaks rest) :
    run ⟨before, .between⟩ (charsOnto layout depth (.real inRange) rest) =
      run ⟨.real inRange :: before, .between⟩ rest := by
  cases inRange with
  | true =>
      rw [charsOnto]
      exact run_word ['-', '0'] nofun (List.all_eq_true.1 rfl) wordToken?_real.1 breaks
  | false =>
      rw [charsOnto]
      exact run_word ['1', 'e', '9', '9', '9'] nofun (List.all_eq_true.1 rfl) wordToken?_real.2
        breaks

mutual

/-- The lexer cuts a written value into its tokens, whatever text comes after it. -/
theorem run_charsOnto (depth : Nat) (json : Json) (before : List Token) {rest : List Char}
    (breaks : Breaks rest) :
    run ⟨before, .between⟩ (charsOnto layout depth json rest) =
      run ⟨json.tokens.reverse ++ before, .between⟩ rest := by
  cases json with
  | null =>
      rw [charsOnto]
      exact run_word ['n', 'u', 'l', 'l'] nofun (List.all_eq_true.1 rfl) rfl breaks
  | boolean value => exact run_boolean depth value before breaks
  | integer value =>
      rw [charsOnto]
      exact run_word (integerChars value) (integerChars_ne_nil value)
        (isWordCharacter_integerChars value) (wordToken?_integerChars value) breaks
  | real inRange => exact run_real depth inRange before breaks
  | string text =>
      rw [charsOnto]
      exact run_stringChars text
  | array items =>
      cases items with
      | nil =>
          rw [charsOnto, run_mark rfl, run_mark rfl]
          rfl
      | cons first items =>
          have last : Breaks (layout.lineBreak depth ++ ']' :: rest) :=
            breaks_lineBreak layout depth rfl
          have later := breaks_itemsOnto layout (depth + 1) items last
          rw [charsOnto, tokens, run_mark rfl, run_blanks (isBlank_lineBreak _ _),
            run_charsOnto (depth + 1) first _ later, run_itemsOnto (depth + 1) items _ last,
            run_blanks (isBlank_lineBreak _ _), run_mark rfl]
          simp
  | object members =>
      cases members with
      | nil =>
          rw [charsOnto, run_mark rfl, run_mark rfl]
          rfl
      | cons first members =>
          obtain ⟨name, value⟩ := first
          have last : Breaks (layout.lineBreak depth ++ '}' :: rest) :=
            breaks_lineBreak layout depth rfl
          have later := breaks_membersOnto layout (depth + 1) members last
          rw [charsOnto, tokens, run_mark rfl, run_blanks (isBlank_lineBreak _ _),
            run_stringChars, run_separator, run_charsOnto (depth + 1) value _ later,
            run_membersOnto (depth + 1) members _ last, run_blanks (isBlank_lineBreak _ _),
            run_mark rfl]
          simp

/-- The lexer cuts further items into their tokens. -/
theorem run_itemsOnto (depth : Nat) (items : List Json) (before : List Token) {rest : List Char}
    (breaks : Breaks rest) :
    run ⟨before, .between⟩ (itemsOnto layout depth items rest) =
      run ⟨(itemTokens items).reverse ++ before, .between⟩ rest := by
  cases items with
  | nil => rfl
  | cons first items =>
      have later := breaks_itemsOnto layout depth items breaks
      rw [itemsOnto, itemTokens, run_mark rfl, run_blanks (isBlank_lineBreak _ _),
        run_charsOnto depth first _ later, run_itemsOnto depth items _ breaks]
      simp

/-- The lexer cuts further members into their tokens. -/
theorem run_membersOnto (depth : Nat) (members : List (Option String × Json))
    (before : List Token) {rest : List Char} (breaks : Breaks rest) :
    run ⟨before, .between⟩ (membersOnto layout depth members rest) =
      run ⟨(memberTokens members).reverse ++ before, .between⟩ rest := by
  cases members with
  | nil => rfl
  | cons first members =>
      obtain ⟨name, value⟩ := first
      have later := breaks_membersOnto layout depth members breaks
      rw [membersOnto, memberTokens, run_mark rfl, run_blanks (isBlank_lineBreak _ _),
        run_stringChars, run_separator, run_charsOnto depth value _ later,
        run_membersOnto depth members _ breaks]
      simp

end

end Lexing

namespace Reader

/-- The reader that is left after tokens. -/
def runTokens (reader : Reader) (tokens : List Token) : Option Reader := tokens.foldlM step reader

theorem runTokens_cons (reader : Reader) (token : Token) (rest : List Token) :
    reader.runTokens (token :: rest) = (reader.step token).bind fun next => next.runTokens rest :=
  List.foldlM_cons

/-- The first item of an array is read like one that stands alone. -/
theorem runTokens_firstItem (json : Json) (frames : List Frame) (rest : List Token) :
    (atFirstItem frames).runTokens (json.tokens ++ rest) =
      (atValue (.array [] :: frames)).runTokens (json.tokens ++ rest) := by
  cases json with
  | array items => cases items <;> rfl
  | object members => cases members <;> rfl
  | _ => rfl

mutual

/-- The reader finishes a value with its tokens, whatever tokens come after them. -/
theorem runTokens_tokens (json : Json) (frames : List Frame) (rest : List Token) :
    (atValue frames).runTokens (json.tokens ++ rest) = (finished json frames).runTokens rest := by
  cases json with
  | array items =>
      cases items with
      | nil => rfl
      | cons first items =>
          have opened : (atValue frames).runTokens ((array (first :: items)).tokens ++ rest) =
              (atFirstItem frames).runTokens
                (first.tokens ++ (itemTokens items ++ (.closeArray :: rest))) := by
            rw [tokens, List.cons_append, List.append_assoc, List.append_assoc]
            rfl
          rw [opened, runTokens_firstItem, runTokens_tokens first,
            runTokens_items items [] first frames rest]
          rfl
  | object members =>
      cases members with
      | nil => rfl
      | cons first members =>
          obtain ⟨name, value⟩ := first
          have opened : (atValue frames).runTokens ((object ((name, value) :: members)).tokens ++ rest) =
              (atValue (.object [] name :: frames)).runTokens
                (value.tokens ++ (memberTokens members ++ (.closeObject :: rest))) := by
            simp only [tokens, List.cons_append, List.append_assoc, List.nil_append]
            rfl
          rw [opened, runTokens_tokens value, runTokens_members members [] name value frames rest]
          rfl
  | _ => rfl

/-- The reader adds further items to the array that is open, and closes it at the end. -/
theorem runTokens_items (items before : List Json) (value : Json) (frames : List Frame)
    (rest : List Token) :
    (finished value (.array before :: frames)).runTokens
        (itemTokens items ++ (.closeArray :: rest)) =
      (finished (.array (before.reverse ++ value :: items)) frames).runTokens rest := by
  cases items with
  | nil =>
      rw [itemTokens, List.nil_append, runTokens_cons]
      simp [step, afterValue]
  | cons first items =>
      have next : (finished value (.array before :: frames)).step .comma =
          some (atValue (.array (value :: before) :: frames)) := rfl
      rw [itemTokens, List.cons_append, List.append_assoc, runTokens_cons, next, Option.bind_some,
        runTokens_tokens first, runTokens_items items (value :: before) first frames rest]
      simp

/-- The reader adds further members to the object that is open, and closes it at the end. -/
theorem runTokens_members (members before : List (Option String × Json)) (name : Option String)
    (value : Json) (frames : List Frame) (rest : List Token) :
    (finished value (.object before name :: frames)).runTokens
        (memberTokens members ++ (.closeObject :: rest)) =
      (finished (.object (before.reverse ++ (name, value) :: members)) frames).runTokens rest := by
  cases members with
  | nil =>
      rw [memberTokens, List.nil_append, runTokens_cons]
      simp [step, afterValue]
  | cons first members =>
      obtain ⟨other, item⟩ := first
      have next : (finished value (.object before name :: frames)).runTokens
          (.comma :: .string other :: .colon ::
            (item.tokens ++ (memberTokens members ++ (.closeObject :: rest)))) =
          (atValue (.object ((name, value) :: before) other :: frames)).runTokens
            (item.tokens ++ (memberTokens members ++ (.closeObject :: rest))) := rfl
      simp only [memberTokens, List.cons_append, List.append_assoc]
      rw [next, runTokens_tokens item,
        runTokens_members members ((name, value) :: before) other item frames rest]
      simp

end

end Reader

/-- The tokens of a value are put together to the value. -/
theorem ofTokens?_tokens (json : Json) : ofTokens? json.tokens = some json := by
  have read := Reader.runTokens_tokens json [] []
  rw [List.append_nil] at read
  unfold ofTokens?
  change ((Reader.atValue []).runTokens json.tokens).bind _ = _
  rw [read]
  rfl

/-- A written value is read back as the value, in both layouts and with blanks around it. -/
theorem ofChars?_chars (layout : Layout) (json : Json) (leading : List Char) {trailing : List Char}
    (blankBefore : ∀ character ∈ leading, isBlank character = true)
    (blankAfter : ∀ character ∈ trailing, isBlank character = true) :
    ofChars? (leading ++ (json.chars layout ++ trailing)) = some json := by
  have breaks : Breaks trailing := by
    intro character first
    have blank := blankAfter character (List.mem_of_head? first)
    simp only [isBlank, Bool.or_eq_true, beq_iff_eq] at blank
    rcases blank with ((rfl | rfl) | rfl) | rfl <;> decide
  have ended : Lexer.run ⟨json.tokens.reverse, .between⟩ (trailing ++ []) = some json.tokens := by
    rw [Lexer.run_blanks blankAfter]
    simp [Lexer.run, Lexer.finish]
  have found : tokens? (leading ++ (json.chars layout ++ trailing)) = some json.tokens := by
    change Lexer.run ⟨[], .between⟩ _ = _
    rw [Lexer.run_blanks blankBefore, chars, ← charsOnto_append, List.nil_append,
      run_charsOnto 0 json [] breaks, List.append_nil]
    rwa [List.append_nil] at ended
  rw [ofChars?, found]
  exact ofTokens?_tokens json

/-- The text of a value on lines of its own is read back as the value. -/
theorem ofText?_line (layout : Layout) (json : Json) :
    ofText? (json.text layout ++ "\n") = some json := by
  have blank : ∀ character ∈ "\n".toList, isBlank character = true := List.all_eq_true.1 rfl
  have read := ofChars?_chars layout json [] (List.forall_mem_nil _) blank
  rw [ofText?, String.toList_append, text, String.toList_ofList]
  exact read

end ComputeMarket.Json
