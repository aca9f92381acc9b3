import ComputeMarket.Digest.Hex
import ComputeMarket.Job
import ComputeMarket.Json.Record
import ComputeMarket.KeyMap
import ComputeMarket.Reputation

/-
This file defines the JSON forms of keys, digests, numbers and names of cases.
-/

namespace ComputeMarket

namespace Json

/-- An object whose members are all named. -/
def record (members : List (String × Json)) : Json :=
  object (members.map fun member => (some member.1, member.2))

def ofString (text : String) : Json := string (some text)

def ofNat (number : Nat) : Json := integer number

/-- A value that may be absent is written as null. -/
def orNull {α : Type} (write : α → Json) : Option α → Json
  | none => null
  | some value => write value

end Json

def Key.toJson (key : Key) : Json := Json.ofString key.text

def Key.ofJson? (json : Json) : Option Key := do
  (Key.ofText (← json.text?)).toOption

def Digest.toJson (digest : Digest) : Json := Json.ofString digest.text

def Digest.ofJson? (json : Json) : Option Digest := do
  (Digest.ofText (← json.text?)).toOption

/-- An amount is written as its base units. -/
def Amount.toJson (amount : Amount) : Json := Json.ofNat amount.base

def Amount.ofJson? (json : Json) : Option Amount := do
  Amount.ofBase? (← json.natural?)

def Count.toJson (count : Count) : Json := Json.ofNat count.value

def Count.ofJson? (json : Json) : Option Count := do
  let value ← json.natural?
  if fits : value ≤ 0xffffffffffffffff then some ⟨value, fits⟩ else none

def Stake.toJson (stake : Stake) : Json := Json.ofNat stake.units

def Stake.ofJson? (json : Json) : Option Stake := do
  Stake.ofNat? (← json.natural?)

namespace Json

def ofInt64 (number : Int64) : Json := integer number.toInt

/-- Reads a signed number, if it fits 64 bits. -/
def int64? : Json → Option Int64
  | integer value => 
    if -0x8000000000000000 ≤ value ∧ value < 0x8000000000000000 then some (Int64.ofInt value)
    else none
  | _ => none

def ofUInt8 (number : UInt8) : Json := Json.ofNat number.toNat

def uint8? (json : Json) : Option UInt8 := do
  let value ← json.natural?
  if value < 0x100 then some (UInt8.ofNat value) else none

def ofUInt32 (number : UInt32) : Json := Json.ofNat number.toNat

def uint32? (json : Json) : Option UInt32 := do
  let value ← json.natural?
  if value < 0x100000000 then some (UInt32.ofNat value) else none

end Json

def Tier.toJson (tier : Tier) : Json := Json.ofString tier.name

def Tier.ofName? : String → Option Tier
  | "starter" => some .starter
  | "bronze" => some .bronze
  | "silver" => some .silver
  | "gold" => some .gold
  | "diamond" => some .diamond
  | _ => none

def Tier.ofJson? (json : Json) : Option Tier := json.case?.bind Tier.ofName?

def JobState.toJson (state : JobState) : Json := Json.ofString state.name

def JobState.ofName? : String → Option JobState
  | "queued" => some .queued
  | "running" => some .running
  | "completed" => some .completed
  | "stopped" => some .stopped
  | "timed_out" => some .timedOut
  | _ => none

def JobState.ofJson? (json : Json) : Option JobState := json.case?.bind JobState.ofName?

def Gpu.toJson (gpu : Gpu) : Json := Json.ofString gpu.name

/-- In the ledger a vendor is written in small letters only. -/
def Gpu.ofExactName? : String → Option Gpu
  | "any" => some .any
  | "nvidia" => some .nvidia
  | "amd" => some .amd
  | _ => none

/-- Reads a kind of graphics card, whose name is written exactly so. -/
def Gpu.ofJson? (json : Json) : Option Gpu := json.case?.bind Gpu.ofExactName?

/-- The name of a rule of expiry in its written form. -/
def Expiry.name : Expiry → String
  | runningOnly => "running_only"
  | queuedAndRunning => "queued_and_running"

def Expiry.toJson (expiry : Expiry) : Json := Json.ofString expiry.name

def Expiry.ofName? : String → Option Expiry
  | "running_only" => some .runningOnly
  | "queued_and_running" => some .queuedAndRunning
  | _ => none

def Expiry.ofJson? (json : Json) : Option Expiry := json.case?.bind Expiry.ofName?

namespace KeyMap

variable {α : Type}

/-- A map is an object whose members are named by the keys, in the order of the keys. -/
def toJson (write : α → Json) (map : KeyMap α) : Json :=
  Json.record (map.entries.map fun entry => (entry.1.text, write entry.2))

/-- The last member of a key counts. -/
def ofJson? (read : Json → Option α) : Json → Option (KeyMap α)
  | .object members => do
    let entries ← members.mapM fun member => do
      return ((← (Key.ofText (← member.1)).toOption), (← read member.2))
    return ofList entries
  | _ => none

end KeyMap

end ComputeMarket
