import ComputeMarket.Amount
import ComputeMarket.Count

/-
This file defines the settlement history of a node and the score that it gives.
-/

namespace ComputeMarket

/-- Five bands of the score, lowest first. -/
inductive Tier where
  | starter
  | bronze
  | silver
  | gold
  | diamond
  deriving DecidableEq, Inhabited

namespace Tier

def name : Tier → String
  | starter => "starter"
  | bronze => "bronze"
  | silver => "silver"
  | gold => "gold"
  | diamond => "diamond"

instance : ToString Tier := ⟨name⟩

/-- The tiers in ascending order. -/
def rank : Tier → Nat
  | starter => 0
  | bronze => 1
  | silver => 2
  | gold => 3
  | diamond => 4

/-- The tier in whose band a score lies. -/
def ofScore (score : Nat) : Tier :=
  if score ≤ 200 then starter
  else if score ≤ 500 then bronze
  else if score ≤ 750 then silver
  else if score ≤ 900 then gold
  else diamond

end Tier

/-- The settlements of one node, over all markets. -/
structure Reputation where
  completed : Count
  timedOut : Count
  revenue : Amount
  /-- The rolling average of the execution times; zero stands for no data. -/
  averageSeconds : Count
  lastActive : Int64
  deriving DecidableEq

namespace Reputation

/-- The record of a node without history. -/
def fresh : Reputation := ⟨.zero, .zero, .zero, .zero, 0⟩

instance : Inhabited Reputation := ⟨fresh⟩

/-- The average after one more execution, nine parts history to one part news. -/
def nextAverage (average seconds : Count) : Count :=
  if average = .zero then seconds
  else .ofNat (((average.scale 9).add seconds).value / 10)

/-- One more completed job, with its time and what it earned. -/
def afterCompletion (reputation : Reputation) (seconds : Count) (revenue : Amount)
    (now : Int64) : Reputation where
  completed := reputation.completed.next
  timedOut := reputation.timedOut
  revenue := (reputation.revenue.add? revenue).getD .largest
  averageSeconds := nextAverage reputation.averageSeconds seconds
  lastActive := now

/-- One more job that ran out of time. -/
def afterTimeout (reputation : Reputation) (now : Int64) : Reputation :=
  { reputation with timedOut := reputation.timedOut.next, lastActive := now }

/-- The share of completed jobs in basis points, of which 16 bits are kept. A node without history
has them all. -/
def completionRate (reputation : Reputation) : Nat :=
  let total := reputation.completed.value + reputation.timedOut.value
  if total = 0 then 10000 else reputation.completed.value * 10000 / total % 0x10000

/-- A score from 0 to 1000. -/
def score (reputation : Reputation) : Nat := min (reputation.completionRate / 10) 1000

/-- The tier that the score of a record leads to. -/
def tier (reputation : Reputation) : Tier := .ofScore reputation.score

/-- Half of the best score is good standing. -/
def isGoodStanding (reputation : Reputation) : Bool := 500 ≤ reputation.score

end Reputation

end ComputeMarket
