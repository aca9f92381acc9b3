import ComputeMarket.Proofs.Format
import ComputeMarket.Proofs.Format.Event
import ComputeMarket.Report

/-
This file proves that a report in JSON loses nothing: it is one JSON value, and reading its parts as
what the ledger holds gives what was shown.
-/

namespace ComputeMarket

open Json.Record

namespace Json

/-- One field of a record that may have more of them. -/
def field? {α : Type} (name : String) (read : Json → Option α) (json : Json) : Option α := do
  (← Record.ofJson? [name] json).required name read

/-- A field of a written record is the member of its name. -/
theorem field?_record {α : Type} {members : List (String × Json)}
    (distinct : (members.map Prod.fst).Nodup) (name : String) (read : Json → Option α) :
    field? name read (record members) = (members.lookup name).bind read := by
  rw [field?, ofJson?_record _ distinct, some_bind, required_ofMembers _ (by simp)]

end Json

theorem Tier.ofJson?_toJson (tier : Tier) : ofJson? tier.toJson = some tier := by
  cases tier <;> rfl

namespace MarketView

/-- The market is made of the members that it knows, beside which the balance stands. -/
def ofJson? (json : Json) : Option MarketView := do
  return {
    market := ← Market.ofJson? json
    vaultBalance := ← json.field? "vault_balance" Amount.ofJson? }

variable (view : MarketView)

/-- The balance has a name that no member of a market has. -/
theorem nodup_members :
    ((view.market.members ++ [("vault_balance", view.vaultBalance.toJson)]).map
      Prod.fst).Nodup := by
  simp [Market.members]

theorem market_toJson : Market.ofJson? view.toJson = some view.market := by
  rw [toJson, Market.ofJson?, ofJson?_record _ view.nodup_members]
  simp [-Option.bind_eq_bind, some_bind, Market.members, required_ofMembers, List.lookup_cons,
    Key.ofJson?_toJson, MarketParams.ofJson?_toJson, Queue.ofJson?_toJson, Count.ofJson?_toJson]

/-- The view of a market has the balance of its vault beside them. -/
theorem vaultBalance_toJson :
    view.toJson.field? "vault_balance" Amount.ofJson? = some view.vaultBalance := by
  rw [toJson, Json.field?_record view.nodup_members]
  simp [Market.members, List.lookup_cons, Amount.ofJson?_toJson]

/-- The view of a market is read back. -/
theorem ofJson?_toJson : ofJson? view.toJson = some view := by
  rw [ofJson?, market_toJson, vaultBalance_toJson]
  rfl

end MarketView

namespace Report

/-- The parts of a JSON value are what the report shows. A market is a market also with the balance
beside its members, and a message without a word about its success is none of success. -/
def ShownBy (json : Json) : Report → Prop
  | .key id => json.field? "pubkey" Key.ofJson? = some id
  | .balance account amount =>
    json.field? "account" Key.ofJson? = some account ∧
      json.field? "balance" Amount.ofJson? = some amount
  | .market view =>
    Market.ofJson? json = some view.market ∧
      json.field? "vault_balance" Amount.ofJson? = some view.vaultBalance
  | .markets views => json.field? "markets" (Json.list? MarketView.ofJson?) = some views
  | .job entry => Job.ofJson? json = some entry
  | .jobs venue entries =>
    json.field? "market" Key.ofJson? = some venue ∧
      json.field? "jobs" (Json.list? Job.ofJson?) = some entries
  | .jobCreated id admission =>
    json.field? "job" Key.ofJson? = some id ∧
      json.field? "admission" JobAdmission.ofJson? = some admission
  | .nodeListed id admission =>
    json.field? "node" Key.ofJson? = some id ∧
      json.field? "admission" NodeAdmission.ofJson? = some admission
  | .swept venue ended =>
    json.field? "market" Key.ofJson? = some venue ∧
      json.field? "timed_out" (Json.list? Key.ofJson?) = some ended
  | .node id amount reputation =>
    json.field? "node" Key.ofJson? = some id ∧
      json.field? "balance" Amount.ofJson? = some amount ∧
      json.field? "completed_jobs" Count.ofJson? = some reputation.completed ∧
      json.field? "timed_out_jobs" Count.ofJson? = some reputation.timedOut ∧
      json.field? "total_revenue" Amount.ofJson? = some reputation.revenue ∧
      json.field? "avg_execution_secs" Count.ofJson? = some reputation.averageSeconds ∧
      json.field? "score" Json.natural? = some reputation.score ∧
      json.field? "tier" Tier.ofJson? = some reputation.tier
  | .message text success =>
    json.field? "message" Json.text? = some text ∧
      (Json.Record.ofJson? ["success"] json).bind
        (·.withDefault "success" false Json.boolean?) = some success

/-- Every report shows all that it has to tell in its written form. -/
theorem shownBy_toJson (report : Report) : report.ShownBy report.toJson := by
  cases report with
  | key id => simp [ShownBy, toJson, Json.field?_record, Key.ofJson?_toJson]
  | balance account amount =>
      simp [ShownBy, toJson, Json.field?_record, List.lookup_cons, Key.ofJson?_toJson,
        Amount.ofJson?_toJson]
  | market view => exact ⟨view.market_toJson, view.vaultBalance_toJson⟩
  | markets views =>
      have read : Json.list? MarketView.ofJson? (.array (views.map MarketView.toJson)) =
          some views := Json.list?_map fun view _ => view.ofJson?_toJson
      simp [ShownBy, toJson, Json.field?_record, read]
  | job entry => exact entry.ofJson?_toJson
  | jobs venue entries =>
      have read : Json.list? Job.ofJson? (.array (entries.map Job.toJson)) = some entries :=
        Json.list?_map fun entry _ => entry.ofJson?_toJson
      simp [ShownBy, toJson, Json.field?_record, List.lookup_cons, Key.ofJson?_toJson, read]
  | jobCreated id admission =>
      simp [ShownBy, toJson, Json.field?_record, List.lookup_cons, Key.ofJson?_toJson,
        JobAdmission.ofJson?_toJson]
  | nodeListed id admission =>
      simp [ShownBy, toJson, Json.field?_record, List.lookup_cons, Key.ofJson?_toJson,
        NodeAdmission.ofJson?_toJson]
  | swept venue ended =>
      have read : Json.list? Key.ofJson? (.array (ended.map Key.toJson)) = some ended :=
        Json.list?_map fun id _ => id.ofJson?_toJson
      simp [ShownBy, toJson, Json.field?_record, List.lookup_cons, Key.ofJson?_toJson, read]
  | node id amount reputation =>
      simp [ShownBy, toJson, Json.field?_record, List.lookup_cons, Key.ofJson?_toJson,
        Amount.ofJson?_toJson, Count.ofJson?_toJson, Json.natural?_ofNat, Tier.ofJson?_toJson]
  | message text success =>
      cases success <;>
        simp [ShownBy, toJson, Json.field?_record, ofJson?_record, withDefault_ofMembers,
          List.lookup_cons, Json.ofString, Json.text?, Json.boolean?]

/-- Whatever is reported in JSON is one JSON value whose parts are read as what was reported. -/
theorem json_loses_nothing (report : Report) :
    ∃ json, Json.ofText? (report.render .json) = some json ∧ report.ShownBy json :=
  ⟨report.toJson, Json.ofText?_line .indented report.toJson, report.shownBy_toJson⟩

end Report

end ComputeMarket
