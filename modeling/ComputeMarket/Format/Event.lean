import ComputeMarket.Event
import ComputeMarket.Format.Scalar

/-
This file defines the JSON forms of admissions and events, which carry the name of their case.
-/

namespace ComputeMarket

def JobAdmission.toJson : JobAdmission → Json
  | queued position =>
    Json.record [("outcome", Json.ofString "queued"), ("position", position.toJson)]
  | matched node => Json.record [("outcome", Json.ofString "matched"), ("node", node.toJson)]

def JobAdmission.ofJson? (json : Json) : Option JobAdmission := do
  let (name, rest) ← Json.tagged? "outcome" json
  match name with
  | "queued" =>
    let fields ← Json.Record.ofJson? ["position"] rest
    return queued (← fields.required "position" Count.ofJson?)
  | "matched" =>
    let fields ← Json.Record.ofJson? ["node"] rest
    return matched (← fields.required "node" Key.ofJson?)
  | _ => none

def NodeAdmission.toJson : NodeAdmission → Json
  | queued position =>
    Json.record [("outcome", Json.ofString "queued"), ("position", position.toJson)]
  | matched job => Json.record [("outcome", Json.ofString "matched"), ("job", job.toJson)]

def NodeAdmission.ofJson? (json : Json) : Option NodeAdmission := do
  let (name, rest) ← Json.tagged? "outcome" json
  match name with
  | "queued" =>
    let fields ← Json.Record.ofJson? ["position"] rest
    return queued (← fields.required "position" Count.ofJson?)
  | "matched" =>
    let fields ← Json.Record.ofJson? ["job"] rest
    return matched (← fields.required "job" Key.ofJson?)
  | _ => none

/-- The members of an event's JSON form after the name of its case. -/
def Event.members : Event → List (String × Json)
  | marketCreated market authority price time =>
    [("market", market.toJson), ("authority", authority.toJson), ("job_price", price.toJson),
      ("at", Json.ofInt64 time)]
  | jobQueued market job position time =>
    [("market", market.toJson), ("job", job.toJson), ("position", position.toJson),
      ("at", Json.ofInt64 time)]
  | jobMatched market job node time =>
    [("market", market.toJson), ("job", job.toJson), ("node", node.toJson),
      ("at", Json.ofInt64 time)]
  | nodeQueued market node position time =>
    [("market", market.toJson), ("node", node.toJson), ("position", position.toJson),
      ("at", Json.ofInt64 time)]
  | nodeDelisted market node time =>
    [("market", market.toJson), ("node", node.toJson), ("at", Json.ofInt64 time)]
  | jobCompleted market job node result payout time =>
    [("market", market.toJson), ("job", job.toJson), ("node", node.toJson),
      ("ipfs_result", result.toJson), ("payout", payout.toJson), ("at", Json.ofInt64 time)]
  | jobStopped market job client refund time =>
    [("market", market.toJson), ("job", job.toJson), ("client", client.toJson),
      ("refund", refund.toJson), ("at", Json.ofInt64 time)]
  | jobTimedOut market job client node refund time =>
    [("market", market.toJson), ("job", job.toJson), ("client", client.toJson),
      ("node", Json.orNull Key.toJson node), ("refund", refund.toJson), ("at", Json.ofInt64 time)]

/-- The name of an event before its fields. -/
def Event.toJson (event : Event) : Json :=
  Json.record (("event", Json.ofString event.name) :: event.members)

def Event.ofJson? (json : Json) : Option Event := do
  let (name, rest) ← Json.tagged? "event" json
  match name with
  | "market_created" =>
    let fields ← Json.Record.ofJson? ["market", "authority", "job_price", "at"] rest
    return marketCreated (← fields.required "market" Key.ofJson?)
      (← fields.required "authority" Key.ofJson?) (← fields.required "job_price" Amount.ofJson?)
      (← fields.required "at" Json.int64?)
  | "job_queued" =>
    let fields ← Json.Record.ofJson? ["market", "job", "position", "at"] rest
    return jobQueued (← fields.required "market" Key.ofJson?)
      (← fields.required "job" Key.ofJson?) (← fields.required "position" Count.ofJson?)
      (← fields.required "at" Json.int64?)
  | "job_matched" =>
    let fields ← Json.Record.ofJson? ["market", "job", "node", "at"] rest
    return jobMatched (← fields.required "market" Key.ofJson?)
      (← fields.required "job" Key.ofJson?) (← fields.required "node" Key.ofJson?)
      (← fields.required "at" Json.int64?)
  | "node_queued" =>
    let fields ← Json.Record.ofJson? ["market", "node", "position", "at"] rest
    return nodeQueued (← fields.required "market" Key.ofJson?)
      (← fields.required "node" Key.ofJson?) (← fields.required "position" Count.ofJson?)
      (← fields.required "at" Json.int64?)
  | "node_delisted" =>
    let fields ← Json.Record.ofJson? ["market", "node", "at"] rest
    return nodeDelisted (← fields.required "market" Key.ofJson?)
      (← fields.required "node" Key.ofJson?) (← fields.required "at" Json.int64?)
  | "job_completed" =>
    let fields ← Json.Record.ofJson? ["market", "job", "node", "ipfs_result", "payout", "at"] rest
    return jobCompleted (← fields.required "market" Key.ofJson?)
      (← fields.required "job" Key.ofJson?) (← fields.required "node" Key.ofJson?)
      (← fields.required "ipfs_result" Digest.ofJson?) (← fields.required "payout" Amount.ofJson?)
      (← fields.required "at" Json.int64?)
  | "job_stopped" =>
    let fields ← Json.Record.ofJson? ["market", "job", "client", "refund", "at"] rest
    return jobStopped (← fields.required "market" Key.ofJson?)
      (← fields.required "job" Key.ofJson?) (← fields.required "client" Key.ofJson?)
      (← fields.required "refund" Amount.ofJson?) (← fields.required "at" Json.int64?)
  | "job_timed_out" =>
    let fields ← Json.Record.ofJson? ["market", "job", "client", "node", "refund", "at"] rest
    return jobTimedOut (← fields.required "market" Key.ofJson?)
      (← fields.required "job" Key.ofJson?) (← fields.required "client" Key.ofJson?)
      (← fields.optional "node" Key.ofJson?) (← fields.required "refund" Amount.ofJson?)
      (← fields.required "at" Json.int64?)
  | _ => none

end ComputeMarket
