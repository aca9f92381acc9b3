import ComputeMarket.CommandLine.Field
import ComputeMarket.Proofs.CommandLine.Written

/-
This file proves that every field of a command line reads the texts of the values that it takes, and
that it changes nothing but its own value.
-/

namespace ComputeMarket

namespace Text

theorem digits?_toDigits (number : Nat) : digits? (Nat.toDigits 10 number) = some number :=
  digits?_eq_some.2 ⟨Nat.toDigits_ne_nil, Json.Numeral.isDigit_toDigits number,
    (Json.Numeral.digitsValue_toDigits number).symm⟩

theorem unsigned?_toDigits (number : Nat) : unsigned? (Nat.toDigits 10 number) = some number := by
  rw [unsigned?_eq, dropPlus_of_isDigits (Json.Numeral.isDigit_toDigits number), digits?_toDigits]

theorem signed?_toDigits (number : Nat) :
    signed? (Nat.toDigits 10 number) = some (number : Int) := by
  have unsigned : (unsigned? (Nat.toDigits 10 number)).map Int.ofNat = some (number : Int) := by
    rw [unsigned?_toDigits]
    rfl
  cases digits : Nat.toDigits 10 number with
  | nil => exact absurd digits Nat.toDigits_ne_nil
  | cons first rest =>
      have plain := Json.Numeral.isDigit_toDigits number first (by simp [digits])
      have different : first ≠ '-' := by
        rintro rfl
        cases plain
      rw [digits] at unsigned
      rw [← unsigned]
      simp [signed?, different]

theorem toList_toString (number : Nat) : (toString number).toList = Nat.toDigits 10 number :=
  String.toList_ofList

/-- A signed number is read back from its text. -/
theorem signed?_toString (number : Int) : signed? (toString number).toList = some number := by
  cases number with
  | ofNat magnitude =>
      change signed? (toString magnitude).toList = _
      rw [toList_toString, signed?_toDigits]
      rfl
  | negSucc less =>
      change signed? ("-" ++ toString (less + 1)).toList = _
      rw [String.toList_append, toList_toString]
      change (digits? (Nat.toDigits 10 (less + 1))).map (fun magnitude => -(magnitude : Int)) = _
      rw [digits?_toDigits]
      rfl

end Text

namespace CommandLine

variable {given : String}

section Texts

/-- A signed number of 64 bits is read back from its text. -/
theorem int64?_toString (number : Int64) : int64? (toString number.toInt) = some number := by
  have least := number.le_toInt
  have greatest := number.toInt_lt
  have range : decide (-0x8000000000000000 ≤ number.toInt ∧ number.toInt ≤ 0x7fffffffffffffff) =
      true := decide_eq_true ⟨by omega, by omega⟩
  rw [int64?, integer?, Text.signed?_toString, Option.filter_some, if_pos range, Option.map_some,
    Int64.ofInt_toInt]

theorem uint8?_toString (number : UInt8) : uint8? (toString number.toNat) = some number := by
  have greatest := number.toNat_lt
  have range : decide ((0 : Int) ≤ number.toNat ∧ (number.toNat : Int) ≤ 255) = true :=
    decide_eq_true ⟨by omega, by omega⟩
  rw [uint8?, integer?, Text.toList_toString, Text.signed?_toDigits, Option.filter_some,
    if_pos range, Option.map_some, Int.toNat_natCast, UInt8.ofNat_toNat]

theorem stake?_toString (held : Stake) : stake? (toString held.units) = some held := by
  rw [stake?, Text.toList_toString, Text.unsigned?_toDigits, Option.bind_some, Stake.ofNat?,
    dif_pos held.units_lt]

theorem key?_text (id : Key) : key? id.text = some id := by
  rw [key?, Key.ofText_text]
  rfl

theorem path?_of_ne (filled : given ≠ "") : path? given = some given := by
  rw [path?, if_neg]
  simpa using filled

/-- An amount is read from each of its spellings. -/
theorem amount?_of_spelled {tokens : Amount} (spelled : (Value.amount tokens).SpelledBy given) :
    amount? given = some tokens := by
  obtain ⟨whole, fraction, numeral, base⟩ := spelled
  rw [amount?, Amount.ofText, numeral.ofChars_eq_ok.2 base.symm]
  rfl

theorem digest?_of_spelled {content : Digest} (spelled : (Value.digest content).SpelledBy given) :
    digest? given = some content := by
  rw [digest?, Digest.ofText_eq_ok.2 spelled]
  rfl

theorem gpu?_of_spelled {vendor : Gpu} (spelled : (Value.gpu vendor).SpelledBy given) :
    gpu? given = some vendor := by
  have lower : given.map Char.toLower = vendor.name := spelled
  rw [gpu?, Gpu.ofName, lower]
  cases vendor <;> rfl

theorem style?_text (form : Style) : style? (Value.style form).text = some form := by
  cases form <;> rfl

end Texts

/-- The value that a draft has for a field. -/
def Draft.value? (draft : Draft) : Field → Option Value
  | .state => draft.state.map .path
  | .config => draft.config.map .path
  | .format => draft.format.map .style
  | .now => draft.now.map .seconds
  | .account => draft.account.map .key
  | .amount => draft.amount.map .amount
  | .authority => draft.authority.map .key
  | .price => draft.price.map .amount
  | .timeout => draft.timeout.map .seconds
  | .minimumStake => draft.minimumStake.map .stake
  | .id => draft.id.map .key
  | .market => draft.market.map .key
  | .client => draft.client.map .key
  | .definition => draft.definition.map .digest
  | .vram => draft.vram.map .byte
  | .gpu => draft.gpu.map .gpu
  | .node => draft.node.map .key
  | .result => draft.result.map .digest
  | .stake => draft.stake.map .stake

/-- Which values a field takes. -/
inductive Field.Takes : Field → Value → Prop
  | state (file : String) : Takes .state (.path file)
  | config (file : String) : Takes .config (.path file)
  | format (form : Style) : Takes .format (.style form)
  | now (number : Int64) : Takes .now (.seconds number)
  | account (id : Key) : Takes .account (.key id)
  | amount (tokens : Amount) : Takes .amount (.amount tokens)
  | authority (id : Key) : Takes .authority (.key id)
  | price (tokens : Amount) : Takes .price (.amount tokens)
  | timeout (number : Int64) : Takes .timeout (.seconds number)
  | minimumStake (held : Stake) : Takes .minimumStake (.stake held)
  | id (id : Key) : Takes .id (.key id)
  | market (id : Key) : Takes .market (.key id)
  | client (id : Key) : Takes .client (.key id)
  | definition (content : Digest) : Takes .definition (.digest content)
  | vram (number : UInt8) : Takes .vram (.byte number)
  | gpu (vendor : Gpu) : Takes .gpu (.gpu vendor)
  | node (id : Key) : Takes .node (.key id)
  | result (content : Digest) : Takes .result (.digest content)
  | stake (held : Stake) : Takes .stake (.stake held)

/-- A field is given exactly if the draft has a value for it. -/
theorem Field.isGiven_eq (draft : Draft) (field : Field) :
    field.isGiven draft = (draft.value? field).isSome := by
  cases field <;> exact Option.isSome_map.symm

/-- The value that a field reads from a text. -/
def Field.read? (given : String) : Field → Option Value
  | .state | .config => (path? given).map .path
  | .format => (style? given).map .style
  | .now | .timeout => (int64? given).map .seconds
  | .account | .authority | .id | .market | .client | .node => (key? given).map .key
  | .amount | .price => (amount? given).map .amount
  | .minimumStake | .stake => (stake? given).map .stake
  | .definition | .result => (digest? given).map .digest
  | .vram => (uint8? given).map .byte
  | .gpu => (gpu? given).map .gpu

/-- A field takes what it reads, and every other field keeps its own value. -/
theorem Field.map_fill? (field : Field) (given : String) (draft : Draft) :
    (field.fill? given draft).map Draft.value? =
      (field.read? given).map fun value => Function.update draft.value? field (some value) := by
  cases field <;> rw [fill?, read?, Option.map_map, Option.map_map] <;> congr 1 <;>
    funext value other <;> cases other <;> rfl

/-- Whatever spells a value of its own is read by a field. -/
theorem Field.read?_of_spelled {field : Field} {value : Value} (takes : field.Takes value)
    (spelled : value.SpelledBy given) : field.read? given = some value := by
  cases takes with
  | state file | config file =>
      obtain ⟨rfl, filled⟩ := spelled
      rw [read?, path?_of_ne filled]
      rfl
  | format form =>
      cases spelled
      rw [read?, style?_text]
      rfl
  | now number | timeout number =>
      cases spelled
      rw [read?, Value.text, int64?_toString]
      rfl
  | account id | authority id | id id | market id | client id | node id =>
      cases spelled
      rw [read?, Value.text, key?_text]
      rfl
  | amount tokens | price tokens =>
      rw [read?, amount?_of_spelled spelled]
      rfl
  | minimumStake held | stake held =>
      cases spelled
      rw [read?, Value.text, stake?_toString]
      rfl
  | definition content | result content =>
      rw [read?, digest?_of_spelled spelled]
      rfl
  | vram number =>
      cases spelled
      rw [read?, Value.text, uint8?_toString]
      rfl
  | gpu vendor =>
      rw [read?, gpu?_of_spelled spelled]
      rfl

/-- A field is given its value once. -/
theorem Field.give_of_spelled {field : Field} {value : Value} {draft : Draft}
    (takes : field.Takes value) (spelled : value.SpelledBy given)
    (absent : draft.value? field = none) :
    ∃ filled, field.give (some given) draft = .ok filled ∧
      filled.value? = Function.update draft.value? field (some value) := by
  have known := field.map_fill? given draft
  rw [read?_of_spelled takes spelled, Option.map_some, Option.map_eq_some_iff] at known
  obtain ⟨filled, read, same⟩ := known
  have free : field.isGiven draft = false := by
    rw [isGiven_eq, absent]
    rfl
  refine ⟨filled, ?_, same⟩
  rw [give, free, read]
  rfl

end CommandLine

end ComputeMarket
