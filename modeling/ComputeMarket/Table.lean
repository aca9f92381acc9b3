import ComputeMarket.Digest.Hex
import ComputeMarket.Job
import ComputeMarket.Market
import ComputeMarket.Reputation

/-
This file defines the lines of the tables that commands print.
-/

namespace ComputeMarket

/-- A market beside the balance of its vault. -/
structure MarketView where
  market : Market
  vaultBalance : Amount
  deriving DecidableEq

namespace Table

def leftAligned (width : Nat) (text : String) : String :=
  text ++ String.ofList (List.replicate (width - text.length) ' ')

def rightAligned (width : Nat) (text : String) : String :=
  String.ofList (List.replicate (width - text.length) ' ') ++ text

def rule (width : Nat) : String := String.ofList (List.replicate width '─')

def doubleRule : String := String.ofList (List.replicate 34 '═')

/-- The word for what a queue holds. -/
def queueWord (queue : Queue) : String :=
  match queue.side? with
  | none => "empty"
  | some .job => "jobs"
  | some .node => "nodes"

/-- The entries of a queue, numbered from one. -/
def queueLines (queue : Queue) : List String :=
  if queue.entries.isEmpty then ["  (empty)"]
  else queue.entries.zipIdx.map fun (id, index) =>
    "  " ++ rightAligned 3 (toString (index + 1)) ++ ". " ++ id.text

def marketLines (view : MarketView) : List String :=
  let market := view.market
  let params := market.params
  [s!"Market {market.id}",
    doubleRule,
    s!"Authority:        {market.authority}",
    s!"Vault:            {market.vault}",
    s!"Vault Balance:    {view.vaultBalance}",
    "",
    "Policy",
    s!"  Job Price:      {params.price}",
    s!"  Job Timeout:    {params.timeout}s",
    s!"  Min Stake:      {params.minimumStake}",
    "",
    "Queue (" ++ queueWord market.queue ++ ")"] ++
  queueLines market.queue ++
  ["",
    "Totals",
    s!"  Jobs:           {market.jobCount}",
    s!"  Node Listings:  {market.listingCount}"]

def marketRow (view : MarketView) : String :=
  let market := view.market
  "  ".intercalate
    [leftAligned 44 market.id.text,
      rightAligned 22 market.params.price.text,
      rightAligned 7 (toString market.params.timeout) ++ "s",
      leftAligned 6 (queueWord market.queue),
      rightAligned 5 (toString market.queue.length),
      rightAligned 22 view.vaultBalance.text]

/-- All markets, one row each. -/
def marketsLines (views : List MarketView) : List String :=
  if views.isEmpty then ["No markets"]
  else
    ["  ".intercalate
      [leftAligned 44 "ID", rightAligned 22 "PRICE", rightAligned 8 "TIMEOUT",
        leftAligned 6 "QUEUE", rightAligned 5 "LEN", rightAligned 22 "VAULT"],
      rule 118] ++
    views.map marketRow ++
    ["", s!"Total: {views.length} market(s)"]

def jobLines (job : Job) : List String :=
  let node := job.node.elim "-" Key.text
  [s!"Job {job.id}",
    doubleRule,
    s!"State:      {job.state}",
    s!"Market:     {job.market}",
    s!"Client:     {job.client}",
    s!"Node:       {node}",
    s!"Price:      {job.price}",
    s!"Timeout:    {job.timeout}s",
    s!"Hardware:   {job.vram} GB VRAM, {job.gpu}",
    s!"Definition: {job.definition}"] ++
  (if job.result.isZero then [] else [s!"Result:     {job.result}"]) ++
  ["",
    s!"Created:    {job.created}",
    s!"Started:    {job.started}",
    s!"Ended:      {job.ended}"]

def jobRow (job : Job) : String :=
  "  ".intercalate
    [leftAligned 44 job.id.text,
      leftAligned 10 job.state.name,
      leftAligned 8 (job.node.elim "-" Key.shortText),
      leftAligned 6 job.gpu.name,
      rightAligned 4 (toString job.vram),
      rightAligned 12 (toString job.created)]

/-- The jobs of a market, one row each. -/
def jobsLines (market : Key) (jobs : List Job) : List String :=
  if jobs.isEmpty then [s!"No jobs in market {market}"]
  else
    ["  ".intercalate
      [leftAligned 44 "ID", leftAligned 10 "STATE", leftAligned 8 "NODE", leftAligned 6 "GPU",
        rightAligned 4 "VRAM", rightAligned 12 "CREATED"],
      rule 94] ++
    jobs.map jobRow ++
    ["", s!"Total: {jobs.length} job(s)"]

def jobAdmissionLine : JobAdmission → String
  | .queued position => s!"  queued at position {position}"
  | .matched node => s!"  matched with node {node}"

def nodeAdmissionLine : NodeAdmission → String
  | .queued position => s!"  queued at position {position}"
  | .matched job => s!"  matched with job {job}"

/-- The jobs that a sweep has ended. -/
def sweptLines (market : Key) (jobs : List Key) : List String :=
  if jobs.isEmpty then [s!"No expired jobs in market {market}"]
  else s!"Timed out {jobs.length} job(s):" :: jobs.map fun job => s!"  {job}"

/-- A node with its balance and its reputation. -/
def nodeLines (node : Key) (balance : Amount) (reputation : Reputation) : List String :=
  [s!"Node {node}",
    doubleRule,
    s!"Balance:        {balance}",
    s!"Revenue:        {reputation.revenue}",
    "",
    "Reputation",
    s!"  Score:        {reputation.score} ({reputation.tier})",
    s!"  Completed:    {reputation.completed}",
    s!"  Timed Out:    {reputation.timedOut}",
    s!"  Avg Runtime:  {reputation.averageSeconds}s"]

end Table

end ComputeMarket
