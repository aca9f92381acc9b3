import ComputeMarket.Report

/-
This file defines the values that a command line can give and how each is read from its text.
-/

namespace ComputeMarket.CommandLine

/-- The values that a command line can give. -/
inductive Field where
  | state
  | config
  | format
  | now
  | account
  | amount
  | authority
  | price
  | timeout
  | minimumStake
  | id
  | market
  | client
  | definition
  | vram
  | gpu
  | node
  | result
  | stake
  deriving DecidableEq

/-- Why a command line runs no command. -/
inductive Refusal where
  /-- Help was asked for. -/
  | help
  /-- The version was asked for. -/
  | version
  /-- Nothing was asked for, so that help is in order. -/
  | nothingGiven
  | missingCommand
  | unknownCommand (name : String)
  | unknownArgument (argument : String)
  | missingArgument
  | missingValue (field : Field)
  /-- The text is empty, or none of the words that the field knows. -/
  | invalidValue (field : Field) (text : String)
  /-- The type of the field has no value of this text. -/
  | rejectedValue (field : Field) (text : String)
  | givenTwice (field : Field)
  /-- The option takes no value and has one. -/
  | unexpectedValue (option : String)
  deriving DecidableEq

/-- The values given so far. -/
structure Draft where
  state : Option String := none
  config : Option String := none
  format : Option Style := none
  now : Option Int64 := none
  account : Option Key := none
  amount : Option Amount := none
  authority : Option Key := none
  price : Option Amount := none
  timeout : Option Int64 := none
  minimumStake : Option Stake := none
  id : Option Key := none
  market : Option Key := none
  client : Option Key := none
  definition : Option Digest := none
  vram : Option UInt8 := none
  gpu : Option Gpu := none
  node : Option Key := none
  result : Option Digest := none
  stake : Option Stake := none
  deriving DecidableEq

/-- A path, which must not be empty. -/
def path? (text : String) : Option String := if text.isEmpty then none else some text

def style? (text : String) : Option Style :=
  if text = "table" then some .table else if text = "json" then some .json else none

/-- A decimal number with an optional sign, from `least` to `greatest`. -/
def integer? (least greatest : Int) (text : String) : Option Int :=
  (Text.signed? text.toList).filter fun number => least ≤ number ∧ number ≤ greatest

def int64? (text : String) : Option Int64 :=
  (integer? (-0x8000000000000000) 0x7fffffffffffffff text).map Int64.ofInt

def uint8? (text : String) : Option UInt8 :=
  (integer? 0 255 text).map fun number => UInt8.ofNat number.toNat

def stake? (text : String) : Option Stake := (Text.unsigned? text.toList).bind Stake.ofNat?

def key? (text : String) : Option Key := (Key.ofText text).toOption

def amount? (text : String) : Option Amount := (Amount.ofText text).toOption

def digest? (text : String) : Option Digest := (Digest.ofText text).toOption

def gpu? (text : String) : Option Gpu := (Gpu.ofName text).toOption

namespace Field

/-- The fault of a text that is no value of the field. -/
def fault (field : Field) (text : String) : Refusal :=
  match field with
  | state | config | format => .invalidValue field text
  | _ => .rejectedValue field text

/-- Whether the draft has a value for the field. -/
def isGiven (draft : Draft) : Field → Bool
  | state => draft.state.isSome
  | config => draft.config.isSome
  | format => draft.format.isSome
  | now => draft.now.isSome
  | account => draft.account.isSome
  | amount => draft.amount.isSome
  | authority => draft.authority.isSome
  | price => draft.price.isSome
  | timeout => draft.timeout.isSome
  | minimumStake => draft.minimumStake.isSome
  | id => draft.id.isSome
  | market => draft.market.isSome
  | client => draft.client.isSome
  | definition => draft.definition.isSome
  | vram => draft.vram.isSome
  | gpu => draft.gpu.isSome
  | node => draft.node.isSome
  | result => draft.result.isSome
  | stake => draft.stake.isSome

/-- The draft with the value that a text stands for, if it stands for one. -/
def fill? (text : String) (draft : Draft) : Field → Option Draft
  | state => (path? text).map fun value => { draft with state := some value }
  | config => (path? text).map fun value => { draft with config := some value }
  | format => (style? text).map fun value => { draft with format := some value }
  | now => (int64? text).map fun value => { draft with now := some value }
  | account => (key? text).map fun value => { draft with account := some value }
  | amount => (amount? text).map fun value => { draft with amount := some value }
  | authority => (key? text).map fun value => { draft with authority := some value }
  | price => (amount? text).map fun value => { draft with price := some value }
  | timeout => (int64? text).map fun value => { draft with timeout := some value }
  | minimumStake => (stake? text).map fun value => { draft with minimumStake := some value }
  | id => (key? text).map fun value => { draft with id := some value }
  | market => (key? text).map fun value => { draft with market := some value }
  | client => (key? text).map fun value => { draft with client := some value }
  | definition => (digest? text).map fun value => { draft with definition := some value }
  | vram => (uint8? text).map fun value => { draft with vram := some value }
  | gpu => (gpu? text).map fun value => { draft with gpu := some value }
  | node => (key? text).map fun value => { draft with node := some value }
  | result => (digest? text).map fun value => { draft with result := some value }
  | stake => (stake? text).map fun value => { draft with stake := some value }

/-- Gives a field its text. A field takes one text, and it takes it once. -/
def give (field : Field) (text : Option String) (draft : Draft) : Except Refusal Draft :=
  match text with
  | none => .error (.missingValue field)
  | some text =>
    if field.isGiven draft then .error (.givenTwice field)
    else
      match field.fill? text draft with
      | some filled => .ok filled
      | none => .error (field.fault text)

/-- The name that messages show. -/
def name : Field → String
  | state => "state"
  | config => "config"
  | format => "format"
  | now => "now"
  | account => "account"
  | amount => "amount"
  | authority => "authority"
  | price => "price"
  | timeout => "timeout"
  | minimumStake => "min-stake"
  | id => "id"
  | market => "market"
  | client => "client"
  | definition => "ipfs"
  | vram => "min-vram"
  | gpu => "gpu"
  | node => "node"
  | result => "result"
  | stake => "stake"

instance : ToString Field := ⟨name⟩

end Field

namespace Refusal

/-- Zero where help or the version is what was asked for. -/
def exitCode : Refusal → UInt8
  | help | version => 0
  | _ => 2

end Refusal

end ComputeMarket.CommandLine
