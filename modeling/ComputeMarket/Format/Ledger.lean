import ComputeMarket.Format.Scalar
import ComputeMarket.Snapshot

/-
This file defines the JSON forms of everything that a snapshot holds.
-/

namespace ComputeMarket

def Config.toJson (config : Config) : Json :=
  Json.record [("max_queue_len", config.capacity.toJson),
    ("queued_job_expiry", config.expiry.toJson),
    ("enforce_deadline_on_finish", Json.boolean config.enforceDeadline),
    ("track_reputation", Json.boolean config.trackReputation)]

/-- Fields that are left out have their defaults. -/
def Config.ofJson? (json : Json) : Option Config := do
  let fields ← Json.Record.ofJson?
    ["max_queue_len", "queued_job_expiry", "enforce_deadline_on_finish", "track_reputation"] json
  let absent : Config := {}
  let capacity ← fields.withDefault "max_queue_len" absent.capacity Count.ofJson?
  let expiry ← fields.withDefault "queued_job_expiry" absent.expiry Expiry.ofJson?
  let enforceDeadline ←
    fields.withDefault "enforce_deadline_on_finish" absent.enforceDeadline Json.boolean?
  let trackReputation ← fields.withDefault "track_reputation" absent.trackReputation Json.boolean?
  return { capacity, expiry, enforceDeadline, trackReputation }

def Reputation.toJson (reputation : Reputation) : Json :=
  Json.record [("completed_jobs", reputation.completed.toJson),
    ("timed_out_jobs", reputation.timedOut.toJson),
    ("total_revenue", reputation.revenue.toJson),
    ("avg_execution_secs", reputation.averageSeconds.toJson),
    ("last_active", Json.ofInt64 reputation.lastActive)]

def Reputation.ofJson? (json : Json) : Option Reputation := do
  let fields ← Json.Record.ofJson?
    ["completed_jobs", "timed_out_jobs", "total_revenue", "avg_execution_secs", "last_active"] json
  return {
    completed := ← fields.required "completed_jobs" Count.ofJson?
    timedOut := ← fields.required "timed_out_jobs" Count.ofJson?
    revenue := ← fields.required "total_revenue" Amount.ofJson?
    averageSeconds := ← fields.required "avg_execution_secs" Count.ofJson?
    lastActive := ← fields.required "last_active" Json.int64? }

def BalanceBook.toJson (book : BalanceBook) : Json := book.accounts.toJson Amount.toJson

def BalanceBook.ofJson? (json : Json) : Option BalanceBook :=
  (KeyMap.ofJson? Amount.ofJson? json).map BalanceBook.mk

def Vault.toJson (vault : Vault) : Json :=
  Json.record [("address", vault.address.toJson), ("balance", vault.balance.toJson)]

def Vault.ofJson? (json : Json) : Option Vault := do
  let fields ← Json.Record.ofJson? ["address", "balance"] json
  return {
    address := ← fields.required "address" Key.ofJson?
    balance := ← fields.required "balance" Amount.ofJson? }

def JobRequest.toJson (request : JobRequest) : Json :=
  Json.record [("id", request.id.toJson),
    ("ipfs_job", request.definition.toJson),
    ("min_vram", Json.ofUInt8 request.vram),
    ("gpu_type", request.gpu.toJson)]

def JobRequest.ofJson? (json : Json) : Option JobRequest := do
  let fields ← Json.Record.ofJson? ["id", "ipfs_job", "min_vram", "gpu_type"] json
  return {
    id := ← fields.required "id" Key.ofJson?
    definition := ← fields.required "ipfs_job" Digest.ofJson?
    vram := ← fields.required "min_vram" Json.uint8?
    gpu := ← fields.required "gpu_type" Gpu.ofJson? }

def Job.toJson (job : Job) : Json :=
  Json.record [("id", job.id.toJson),
    ("market", job.market.toJson),
    ("client", job.client.toJson),
    ("node", Json.orNull Key.toJson job.node),
    ("ipfs_job", job.definition.toJson),
    ("ipfs_result", job.result.toJson),
    ("price", job.price.toJson),
    ("timeout", Json.ofInt64 job.timeout),
    ("min_vram", Json.ofUInt8 job.vram),
    ("gpu_type", job.gpu.toJson),
    ("state", job.state.toJson),
    ("time_created", Json.ofInt64 job.created),
    ("time_start", Json.ofInt64 job.started),
    ("time_end", Json.ofInt64 job.ended)]

def Job.ofJson? (json : Json) : Option Job := do
  let fields ← Json.Record.ofJson?
    ["id", "market", "client", "node", "ipfs_job", "ipfs_result", "price", "timeout", "min_vram",
      "gpu_type", "state", "time_created", "time_start", "time_end"] json
  return {
    id := ← fields.required "id" Key.ofJson?
    market := ← fields.required "market" Key.ofJson?
    client := ← fields.required "client" Key.ofJson?
    node := ← fields.optional "node" Key.ofJson?
    definition := ← fields.required "ipfs_job" Digest.ofJson?
    result := ← fields.required "ipfs_result" Digest.ofJson?
    price := ← fields.required "price" Amount.ofJson?
    timeout := ← fields.required "timeout" Json.int64?
    vram := ← fields.required "min_vram" Json.uint8?
    gpu := ← fields.required "gpu_type" Gpu.ofJson?
    state := ← fields.required "state" JobState.ofJson?
    created := ← fields.required "time_created" Json.int64?
    started := ← fields.required "time_start" Json.int64?
    ended := ← fields.required "time_end" Json.int64? }

/-- A queue with its tag, and its entries if it has any. -/
def Queue.toJson : Queue → Json
  | .empty => Json.record [("type", Json.ofString "empty")]
  | .jobs waiting =>
    Json.record [("type", Json.ofString "jobs"), ("entries", .array (waiting.map Key.toJson))]
  | .nodes waiting =>
    Json.record [("type", Json.ofString "nodes"), ("entries", .array (waiting.map Key.toJson))]

/-- An empty queue may still have entries of null. In an array the type is always a plain name. -/
def Queue.ofJson? (json : Json) : Option Queue := do
  let fields ← Json.Record.ofJson? ["type", "entries"] json
  match ← fields.required "type" (if fields.isNamed then Json.case? else Json.text?) with
  | "empty" =>
    match ← fields.optional "entries" some with
    | none => return .empty
    | some _ => none
  | "jobs" => return .jobs (← fields.required "entries" (Json.list? Key.ofJson?))
  | "nodes" => return .nodes (← fields.required "entries" (Json.list? Key.ofJson?))
  | _ => none

/-- What a queue holds, as a name of its own. -/
def Queue.typeName (queue : Queue) : String :=
  match queue.side? with
  | none => "empty"
  | some .job => "holding_jobs"
  | some .node => "holding_nodes"

/-- What the name of a queue's contents stands for. -/
def Queue.sideOfTypeName? : String → Option (Option Side)
  | "empty" => some none
  | "holding_jobs" => some (some .job)
  | "holding_nodes" => some (some .node)
  | _ => none

def MarketParams.toJson (params : MarketParams) : Json :=
  Json.record [("job_price", params.price.toJson),
    ("job_timeout", Json.ofInt64 params.timeout),
    ("node_xhyper_minimum", params.minimumStake.toJson)]

def MarketParams.ofJson? (json : Json) : Option MarketParams := do
  let fields ← Json.Record.ofJson? ["job_price", "job_timeout", "node_xhyper_minimum"] json
  return {
    price := ← fields.required "job_price" Amount.ofJson?
    timeout := ← fields.required "job_timeout" Json.int64?
    minimumStake := ← fields.required "node_xhyper_minimum" Stake.ofJson? }

/-- The members of a market's JSON form. -/
def Market.members (market : Market) : List (String × Json) :=
  [("id", market.id.toJson),
    ("authority", market.authority.toJson),
    ("vault", market.vault.toJson),
    ("params", market.params.toJson),
    ("queue", market.queue.toJson),
    ("total_jobs", market.jobCount.toJson),
    ("total_nodes", market.listingCount.toJson)]

def Market.toJson (market : Market) : Json := Json.record market.members

def Market.ofJson? (json : Json) : Option Market := do
  let fields ← Json.Record.ofJson?
    ["id", "authority", "vault", "params", "queue", "total_jobs", "total_nodes"] json
  return {
    id := ← fields.required "id" Key.ofJson?
    authority := ← fields.required "authority" Key.ofJson?
    vault := ← fields.required "vault" Key.ofJson?
    params := ← fields.required "params" MarketParams.ofJson?
    queue := ← fields.required "queue" Queue.ofJson?
    jobCount := ← fields.required "total_jobs" Count.ofJson?
    listingCount := ← fields.required "total_nodes" Count.ofJson? }

/-- A market with the balance of its vault and its jobs. -/
def MarketRecord.toJson (entry : MarketRecord) : Json :=
  Json.record [("market", entry.market.toJson),
    ("vault_balance", entry.vaultBalance.toJson),
    ("jobs", .array (entry.jobs.map Job.toJson))]

def MarketRecord.ofJson? (json : Json) : Option MarketRecord := do
  let fields ← Json.Record.ofJson? ["market", "vault_balance", "jobs"] json
  return {
    market := ← fields.required "market" Market.ofJson?
    vaultBalance := ← fields.required "vault_balance" Amount.ofJson?
    jobs := ← fields.required "jobs" (Json.list? Job.ofJson?) }

def Snapshot.toJson (snapshot : Snapshot) : Json :=
  Json.record [("version", Json.ofUInt32 snapshot.version),
    ("markets", .array (snapshot.markets.map MarketRecord.toJson)),
    ("balances", snapshot.balances.toJson),
    ("reputations", snapshot.reputations.toJson Reputation.toJson)]

def Snapshot.ofJson? (json : Json) : Option Snapshot := do
  let fields ← Json.Record.ofJson? ["version", "markets", "balances", "reputations"] json
  return {
    version := ← fields.required "version" Json.uint32?
    markets := ← fields.required "markets" (Json.list? MarketRecord.ofJson?)
    balances := ← fields.withDefault "balances" .empty BalanceBook.ofJson?
    reputations := ← fields.withDefault "reputations" .empty (KeyMap.ofJson? Reputation.ofJson?) }

end ComputeMarket
