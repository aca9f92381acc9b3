import ComputeMarket.Format.Event
import ComputeMarket.Format.Ledger
import ComputeMarket.Json.Writer
import ComputeMarket.Table

/-
This file defines the reports that commands print, as tables for readers and as JSON for scripts.
-/

namespace ComputeMarket

/-- What a command has to tell. -/
inductive Report where
  | key (key : Key)
  | balance (account : Key) (balance : Amount)
  | market (view : MarketView)
  | markets (views : List MarketView)
  | job (job : Job)
  | jobs (market : Key) (jobs : List Job)
  | jobCreated (job : Key) (admission : JobAdmission)
  | nodeListed (node : Key) (admission : NodeAdmission)
  | swept (market : Key) (jobs : List Key)
  | node (node : Key) (balance : Amount) (reputation : Reputation)
  | message (text : String) (success : Bool)
  deriving DecidableEq

/-- The two forms of a report. -/
inductive Style where
  | table
  | json
  deriving DecidableEq, Inhabited

/-- The members of the market itself, and after them the balance. -/
def MarketView.toJson (view : MarketView) : Json :=
  Json.record (view.market.members ++ [("vault_balance", view.vaultBalance.toJson)])

namespace Report

/-- The lines of the table form. -/
def lines : Report → List String
  | .key id => [id.text]
  | .balance account amount => [s!"Account:  {account}", s!"Balance:  {amount}"]
  | .market view => Table.marketLines view
  | .markets views => Table.marketsLines views
  | .job entry => Table.jobLines entry
  | .jobs venue entries => Table.jobsLines venue entries
  | .jobCreated id admission => [s!"✓ Created job {id}", Table.jobAdmissionLine admission]
  | .nodeListed id admission => [s!"✓ Listed node {id}", Table.nodeAdmissionLine admission]
  | .swept venue ended => Table.sweptLines venue ended
  | .node id amount reputation => Table.nodeLines id amount reputation
  | .message text success => [if success then s!"✓ {text}" else text]

/-- The written form of a report. -/
def toJson : Report → Json
  | .key id => Json.record [("pubkey", id.toJson)]
  | .balance account amount =>
    Json.record [("account", account.toJson), ("balance", amount.toJson)]
  | .market view => view.toJson
  | .markets views => Json.record [("markets", .array (views.map MarketView.toJson))]
  | .job entry => entry.toJson
  | .jobs venue entries =>
    Json.record [("market", venue.toJson), ("jobs", .array (entries.map Job.toJson))]
  | .jobCreated id admission =>
    Json.record [("job", id.toJson), ("admission", admission.toJson)]
  | .nodeListed id admission =>
    Json.record [("node", id.toJson), ("admission", admission.toJson)]
  | .swept venue ended =>
    Json.record [("market", venue.toJson), ("timed_out", .array (ended.map Key.toJson))]
  | .node id amount reputation =>
    Json.record [("node", id.toJson),
      ("balance", amount.toJson),
      ("completed_jobs", reputation.completed.toJson),
      ("timed_out_jobs", reputation.timedOut.toJson),
      ("total_revenue", reputation.revenue.toJson),
      ("avg_execution_secs", reputation.averageSeconds.toJson),
      ("score", Json.ofNat reputation.score),
      ("tier", reputation.tier.toJson)]
  | .message text success =>
    Json.record (("message", Json.ofString text) ::
      if success then [("success", .boolean true)] else [])

/-- The text of a report in the style that was asked for. -/
def render (style : Style) (report : Report) : String :=
  match style with
  | .table => String.join (report.lines.map (· ++ "\n"))
  | .json => report.toJson.text .indented ++ "\n"

end Report

end ComputeMarket
