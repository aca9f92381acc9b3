import ComputeMarket.Digest
import ComputeMarket.Market

/-
This file defines the events that successful operations leave behind.
-/

namespace ComputeMarket

/-- What is told about a change of a market. -/
inductive Event where
  | marketCreated (market authority : Key) (price : Amount) (time : Int64)
  | jobQueued (market job : Key) (position : Count) (time : Int64)
  | jobMatched (market job node : Key) (time : Int64)
  | nodeQueued (market node : Key) (position : Count) (time : Int64)
  | nodeDelisted (market node : Key) (time : Int64)
  | jobCompleted (market job node : Key) (result : Digest) (payout : Amount) (time : Int64)
  | jobStopped (market job client : Key) (refund : Amount) (time : Int64)
  /-- The node is the one that failed to deliver, if the job was matched. -/
  | jobTimedOut (market job client : Key) (node : Option Key) (refund : Amount) (time : Int64)
  deriving DecidableEq

namespace Event

/-- The market that the event belongs to. -/
def market : Event → Key
  | marketCreated market .. | jobQueued market .. | jobMatched market .. | nodeQueued market ..
  | nodeDelisted market .. | jobCompleted market .. | jobStopped market ..
  | jobTimedOut market .. => market

def name : Event → String
  | marketCreated .. => "market_created"
  | jobQueued .. => "job_queued"
  | jobMatched .. => "job_matched"
  | nodeQueued .. => "node_queued"
  | nodeDelisted .. => "node_delisted"
  | jobCompleted .. => "job_completed"
  | jobStopped .. => "job_stopped"
  | jobTimedOut .. => "job_timed_out"

end Event

end ComputeMarket
