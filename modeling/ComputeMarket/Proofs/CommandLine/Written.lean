import ComputeMarket.Command
import ComputeMarket.Proofs.Text.Decimal
import ComputeMarket.Proofs.Text.Hex

/-
This file says which command lines stand for an invocation: the names of its command, then the
values of the command in their order and its options in any order, and its other options before the
names. Options may be left out that give what holds without them.
-/

namespace ComputeMarket

namespace CommandLine

/-- A value that a command line can give. -/
inductive Value where
  | path (file : String)
  | style (form : Style)
  | seconds (number : Int64)
  | key (id : Key)
  | amount (tokens : Amount)
  | digest (content : Digest)
  | byte (number : UInt8)
  | gpu (vendor : Gpu)
  | stake (held : Stake)

namespace Value

/-- The text that a value has of itself. -/
def text : Value → String
  | .path file => file
  | .style .table => "table"
  | .style .json => "json"
  | .seconds number => toString number.toInt
  | .key id => id.text
  | .amount tokens => String.ofList tokens.decimal
  | .digest content => content.text
  | .byte number => toString number.toNat
  | .gpu vendor => vendor.name
  | .stake held => toString held.units

/-- Whether a text spells a value. Amounts may be any decimal numbers of whole tokens, and the
letters of digests and vendors may be of either case. No text spells the empty path. -/
def SpelledBy (given : String) : Value → Prop
  | .path file => given = file ∧ file ≠ ""
  | .amount tokens => ∃ whole fraction, Amount.IsNumeral given.toList whole fraction ∧
      Amount.baseUnits whole fraction = tokens.base
  | .digest content => given.toLower = content.text
  | .gpu vendor => given.toLower = vendor.name
  | value => given = value.text

/-- Every value but the empty path is spelled by its text. -/
theorem spelledBy_text {value : Value} (filled : value ≠ .path "") :
    value.SpelledBy value.text := by
  cases value with
  | path file => exact ⟨rfl, fun empty => filled (congrArg Value.path empty)⟩
  | amount tokens =>
      have numeral := Amount.isNumeral_decimal tokens
      rw [← String.toList_ofList (l := tokens.decimal)] at numeral
      exact ⟨_, _, numeral, Amount.baseUnits_decimal tokens⟩
  | digest content =>
      have lower : content.text.toLower = content.text :=
        Digest.ofText_eq_ok.1 (Digest.ofText_text content)
      exact lower
  | gpu vendor =>
      have lower : vendor.name.toLower = vendor.name := by cases vendor <;> decide +kernel
      exact lower
  | style | seconds | key | byte | stake => exact rfl

end Value

/-- An option of a command line with its value. -/
structure Choice where
  name : String
  value : Value
  /-- The value that holds when the option is left out. -/
  standard : Option Value := none

/-- Arguments that give values in their order and options in any order, mixed. An option is written
with its value behind an equals sign. At the end only those options are left out whose values hold
without them. -/
inductive Written :
    (words : List Value) → (choices : List Choice) → (arguments : List String) → Prop
  | done {choices : List Choice}
      (standard : ∀ choice ∈ choices, choice.standard = some choice.value) : Written [] choices []
  | word {value : Value} {words : List Value} {choices : List Choice} {text : String}
      {rest : List String} (spelled : value.SpelledBy text) (later : Written words choices rest) :
      Written (value :: words) choices (text :: rest)
  | option {words : List Value} (before : List Choice) {after : List Choice} (choice : Choice)
      (text : String) {rest : List String} (spelled : choice.value.SpelledBy text)
      (later : Written words (before ++ after) rest) :
      Written words (before ++ choice :: after) (("--" ++ choice.name ++ "=" ++ text) :: rest)

/-- Everything can be written, the options after the words. -/
theorem exists_written {words : List Value} {choices : List Choice}
    (filledWords : ∀ value ∈ words, value ≠ .path "")
    (filled : ∀ choice ∈ choices, choice.value ≠ .path "") :
    ∃ arguments, Written words choices arguments := by
  induction words with
  | nil =>
      induction choices with
      | nil => exact ⟨[], .done (List.forall_mem_nil _)⟩
      | cons choice rest inductionHypothesis =>
          rw [List.forall_mem_cons] at filled
          obtain ⟨arguments, later⟩ := inductionHypothesis filled.2
          exact ⟨_, .option [] choice _ (Value.spelledBy_text filled.1) later⟩
  | cons value rest inductionHypothesis =>
      rw [List.forall_mem_cons] at filledWords
      obtain ⟨arguments, later⟩ := inductionHypothesis filledWords.2
      exact ⟨_, .word (Value.spelledBy_text filledWords.1) later⟩

end CommandLine

open CommandLine

namespace Command

/-- The name of a command, after the name of its group if it has one. -/
def names : Command → List String
  | keygen => ["keygen"]
  | deposit .. => ["deposit"]
  | balance _ => ["balance"]
  | createMarket .. => ["market", "create"]
  | showMarket _ => ["market", "show"]
  | listMarkets => ["market", "list"]
  | createJob _ => ["job", "create"]
  | showJob _ => ["job", "show"]
  | listJobs _ => ["job", "list"]
  | finishJob .. => ["job", "finish"]
  | cancelJob .. => ["job", "cancel"]
  | timeoutJob _ => ["job", "timeout"]
  | listNode .. => ["node", "list"]
  | delistNode .. => ["node", "delist"]
  | showNode _ => ["node", "show"]
  | sweep _ => ["sweep"]

/-- The values that a command takes without a name. -/
def words : Command → List Value
  | keygen | createMarket .. | listMarkets | createJob _ => []
  | deposit account amount => [.key account, .amount amount]
  | balance account => [.key account]
  | showMarket id | showJob id | finishJob id .. | cancelJob id _ | timeoutJob id => [.key id]
  | listJobs market | listNode market .. | delistNode market _ | sweep market => [.key market]
  | showNode node => [.key node]

/-- The options of a command. -/
def choices : Command → List Choice
  | createMarket authority params =>
    [{ name := "authority", value := .key authority },
      { name := "price", value := .amount params.price },
      { name := "timeout", value := .seconds params.timeout, standard := some (.seconds 3600) },
      { name := "min-stake", value := .stake params.minimumStake, standard := some (.stake .zero) }]
  | createJob order =>
    [{ name := "market", value := .key order.market },
      { name := "client", value := .key order.client },
      { name := "ipfs", value := .digest order.definition },
      { name := "min-vram", value := .byte order.vram, standard := some (.byte 0) },
      { name := "gpu", value := .gpu order.gpu, standard := some (.gpu .any) }] ++
      order.id.toList.map fun id => { name := "id", value := .key id }
  | finishJob _ node result =>
    [{ name := "node", value := .key node }, { name := "result", value := .digest result }]
  | cancelJob _ client => [{ name := "client", value := .key client }]
  | listNode _ node stake =>
    [{ name := "node", value := .key node },
      { name := "stake", value := .stake stake, standard := some (.stake .zero) }]
  | delistNode _ node => [{ name := "node", value := .key node }]
  | _ => []

/-- No word of a command is a path. -/
theorem words_ne_path (command : Command) (file : String) :
    ∀ value ∈ command.words, value ≠ .path file := by
  cases command <;> simp [words]

theorem choices_ne_path (command : Command) (file : String) :
    ∀ choice ∈ command.choices, choice.value ≠ .path file := by
  cases command <;> simp [choices]

end Command

namespace Invocation

/-- The options that stand before the name of the command. -/
def choices (invocation : Invocation) : List Choice :=
  [{ name := "state", value := .path invocation.ledger,
      standard := some (.path "hypernode-ledger.json") },
    { name := "format", value := .style invocation.style, standard := some (.style .table) }] ++
    (invocation.config.toList.map fun path => { name := "config", value := .path path }) ++
    invocation.now.toList.map fun now => { name := "now", value := .seconds now }

/-- The arguments that stand for an invocation. -/
def WrittenAs (invocation : Invocation) (arguments : List String) : Prop :=
  ∃ options rest, arguments = options ++ invocation.command.names ++ rest ∧
    Written [] invocation.choices options ∧
    Written invocation.command.words invocation.command.choices rest

end Invocation

end ComputeMarket
