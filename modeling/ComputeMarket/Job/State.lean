/-
This file defines the states of a job and the moves between them.
-/

namespace ComputeMarket

/-- Where a job stands between its creation and its end. -/
inductive JobState where
  | queued
  | running
  | completed
  | stopped
  | timedOut
  deriving DecidableEq, Inhabited

namespace JobState

def name : JobState → String
  | queued => "queued"
  | running => "running"
  | completed => "completed"
  | stopped => "stopped"
  | timedOut => "timed_out"

instance : ToString JobState := ⟨name⟩

/-- A queued job is matched, withdrawn or expires; a running job is finished or expires. -/
def canBecome : JobState → JobState → Bool
  | queued, running | queued, stopped | queued, timedOut => true
  | running, completed | running, timedOut => true
  | _, _ => false

/-- Whether a job has come to its end. -/
def isTerminal : JobState → Bool
  | completed | stopped | timedOut => true
  | queued | running => false

/-- The price of an open job is still in escrow. -/
def isOpen (state : JobState) : Bool := !state.isTerminal

end JobState

end ComputeMarket
