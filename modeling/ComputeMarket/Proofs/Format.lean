import ComputeMarket.Proofs.Json.Record
import ComputeMarket.Proofs.Json.Text
import ComputeMarket.Session

/-
This file proves that everything a ledger file or a configuration file holds is read back as what
it was.
-/

namespace ComputeMarket

open Json.Record

theorem Expiry.ofJson?_toJson (expiry : Expiry) : ofJson? expiry.toJson = some expiry := by
  cases expiry <;> rfl

theorem Config.ofJson?_toJson (config : Config) : ofJson? config.toJson = some config := by
  rw [toJson, ofJson?, ofJson?_record _ (by simp)]
  simp [-Option.bind_eq_bind, some_bind, withDefault_ofMembers, List.lookup_cons,
    Count.ofJson?_toJson, Expiry.ofJson?_toJson, Json.boolean?]

theorem BalanceBook.ofJson?_toJson (book : BalanceBook) : ofJson? book.toJson = some book := by
  rw [toJson, ofJson?, KeyMap.ofJson?_toJson _ fun amount _ => amount.ofJson?_toJson]
  rfl

theorem Reputation.ofJson?_toJson (reputation : Reputation) :
    ofJson? reputation.toJson = some reputation := by
  rw [toJson, ofJson?, ofJson?_record _ (by simp)]
  simp [-Option.bind_eq_bind, some_bind, required_ofMembers, List.lookup_cons,
    Count.ofJson?_toJson, Amount.ofJson?_toJson, Json.int64?_ofInt64]

theorem MarketParams.ofJson?_toJson (params : MarketParams) :
    ofJson? params.toJson = some params := by
  rw [toJson, ofJson?, ofJson?_record _ (by simp)]
  simp [-Option.bind_eq_bind, some_bind, required_ofMembers, List.lookup_cons,
    Amount.ofJson?_toJson, Json.int64?_ofInt64, Stake.ofJson?_toJson]

theorem Job.ofJson?_toJson (job : Job) : ofJson? job.toJson = some job := by
  rw [toJson, ofJson?, ofJson?_record _ (by simp)]
  simp [-Option.bind_eq_bind, some_bind, required_ofMembers, optional_ofMembers, List.lookup_cons,
    Key.ofJson?_toJson, Key.orAbsent_orNull, Digest.ofJson?_toJson, Amount.ofJson?_toJson,
    Json.int64?_ofInt64, Json.uint8?_ofUInt8, Gpu.ofJson?_toJson, JobState.ofJson?_toJson]

/-- A queue is read back with its tag. -/
theorem Queue.ofJson?_toJson (queue : Queue) : ofJson? queue.toJson = some queue := by
  have keys (waiting : List Key) :
      Json.list? Key.ofJson? (.array (waiting.map Key.toJson)) = some waiting :=
    Json.list?_map fun key _ => key.ofJson?_toJson
  have named (members : List (String × Json)) :
      (ofMembers ["type", "entries"] members).isNamed = true := rfl
  cases queue with
  | empty =>
      rw [toJson, ofJson?, ofJson?_record _ (by simp)]
      simp [-Option.bind_eq_bind, some_bind, named, required_ofMembers, optional_ofMembers,
        List.lookup_cons, orAbsent, Json.ofString, Json.case?]
  | jobs waiting =>
      rw [toJson, ofJson?, ofJson?_record _ (by simp)]
      simp [-Option.bind_eq_bind, some_bind, named, required_ofMembers, List.lookup_cons,
        Json.ofString, Json.case?, keys]
  | nodes waiting =>
      rw [toJson, ofJson?, ofJson?_record _ (by simp)]
      simp [-Option.bind_eq_bind, some_bind, named, required_ofMembers, List.lookup_cons,
        Json.ofString, Json.case?, keys]

theorem Market.ofJson?_toJson (market : Market) : ofJson? market.toJson = some market := by
  rw [toJson, ofJson?, ofJson?_record _ (by simp [members])]
  simp [-Option.bind_eq_bind, some_bind, members, required_ofMembers, List.lookup_cons,
    Key.ofJson?_toJson, MarketParams.ofJson?_toJson, Queue.ofJson?_toJson, Count.ofJson?_toJson]

/-- The record of a market is read back with its jobs. -/
theorem MarketRecord.ofJson?_toJson (record : MarketRecord) :
    ofJson? record.toJson = some record := by
  have jobs : Json.list? Job.ofJson? (.array (record.jobs.map Job.toJson)) = some record.jobs :=
    Json.list?_map fun job _ => job.ofJson?_toJson
  rw [toJson, ofJson?, ofJson?_record _ (by simp)]
  simp [-Option.bind_eq_bind, some_bind, required_ofMembers, List.lookup_cons,
    Market.ofJson?_toJson, Amount.ofJson?_toJson, jobs]

namespace Snapshot

/-- A snapshot is read back from its written form. -/
theorem ofJson?_toJson (snapshot : Snapshot) : ofJson? snapshot.toJson = some snapshot := by
  have markets : Json.list? MarketRecord.ofJson? (.array (snapshot.markets.map MarketRecord.toJson)) =
      some snapshot.markets :=
    Json.list?_map fun record _ => record.ofJson?_toJson
  have reputations : KeyMap.ofJson? Reputation.ofJson?
      (snapshot.reputations.toJson Reputation.toJson) = some snapshot.reputations :=
    KeyMap.ofJson?_toJson _ fun reputation _ => reputation.ofJson?_toJson
  rw [toJson, ofJson?, ofJson?_record _ (by simp)]
  simp [-Option.bind_eq_bind, some_bind, required_ofMembers, withDefault_ofMembers,
    List.lookup_cons, Json.uint32?_ofUInt32, markets, BalanceBook.ofJson?_toJson, reputations]

/-- The text of a ledger file is read back as the snapshot that was saved. -/
theorem ofText?_text (snapshot : Snapshot) : ofText? snapshot.text = some snapshot := by
  rw [ofText?, text, Json.ofText?_line, Option.bind_some]
  exact snapshot.ofJson?_toJson

end Snapshot

end ComputeMarket
