import ComputeMarket.Reputation
import ComputeMarket.Transition

/-
This file defines the store of all markets and the operations on it.
-/

namespace ComputeMarket

/-- All markets with their jobs, the balances, the reputations and the events not yet taken. -/
structure Store where
  config : Config
  venues : KeyMap Venue
  /-- The market of every job. -/
  jobMarkets : KeyMap Key
  balances : BalanceBook
  reputations : KeyMap Reputation
  events : List Event
  deriving DecidableEq

abbrev Action (α : Type) := EStateM MarketError Store α

namespace Store

/-- The store without markets, accounts and events. -/
def empty (config : Config) : Store where
  config := config
  venues := .empty
  jobMarkets := .empty
  balances := .empty
  reputations := .empty
  events := []

/-- An empty store, if the configuration is valid. -/
def new (config : Config) : Except MarketError Store := do
  config.validate
  return empty config

/-- The store with the desk of a market put back. -/
def file (store : Store) (market : Key) (desk : Desk) : Store :=
  { store with venues := store.venues.insert market desk.venue, balances := desk.balances }

/-- Lets a transition work on one market. What it leaves behind is filed even if it fails. -/
def onMarket {α : Type} (market : Key) (transition : Transition α) : Action α := fun store =>
  match store.venues.get? market with
  | none => .error (.marketNotFound market) store
  | some venue =>
    match transition ⟨venue, store.balances⟩ with
    | .ok value desk => .ok value (store.file market desk)
    | .error cause desk => .error cause (store.file market desk)

/-- The market that a job was created in. -/
def marketOfJob (job : Key) : Action Key := do
  match (← get).jobMarkets.get? job with
  | some market => pure market
  | none => throw (.jobNotFound job)

/-- Adds events to those that wait to be taken. -/
def announce (events : List Event) : Action Unit :=
  modify fun store => { store with events := store.events ++ events }

/-- Changes the record of a node, if reputations are kept. -/
def updateReputation (node : Key) (update : Reputation → Reputation) : Action Unit :=
  modify fun store =>
    if store.config.trackReputation then
      let reputation := (store.reputations.get? node).getD .fresh
      { store with reputations := store.reputations.insert node (update reputation) }
    else store

/-- Counts a job that timed out against its node, if it had one. -/
def noteTimeout (now : Int64) (job : Job) : Action Unit :=
  match job.node with
  | some node => updateReputation node fun reputation => reputation.afterTimeout now
  | none => pure ()

/-- The first id of an authority's next market that no market has. The nonces are tried in
order from `nonce` on, around the end of their range. -/
def freshId? (venues : KeyMap Venue) (authority : Key) : (attempts : Nat) → UInt64 → Option Key
  | 0, _ => none
  | attempts + 1, nonce =>
    let candidate := Market.idOf authority nonce
    if venues.contains candidate then freshId? venues authority attempts (nonce + 1)
    else some candidate

/-- Opens a market. The number of markets is the first nonce, and every nonce is tried. -/
def createMarket (authority : Key) (params : MarketParams) (now : Int64) : Action Key := do
  accept params.validate
  let venues := (← get).venues
  let nonce := UInt64.ofNat venues.size
  let some id := freshId? venues authority 0x10000000000000000 nonce
    | throw (.duplicate .market (Market.idOf authority nonce))
  modify fun store => { store with venues := venues.insert id (Venue.new id authority params) }
  announce [.marketCreated id authority params.price now]
  return id

/-- Lets a job into a market and enters it in the index. -/
def createJob (market client : Key) (request : JobRequest) (now : Int64) :
    Action JobAdmission := do
  let store ← get
  unless store.venues.contains market do
    throw (.marketNotFound market)
  if store.jobMarkets.contains request.id then
    throw (.duplicate .job request.id)
  let (admission, event) ←
    onMarket market (Desk.createJob client request store.config.capacity now)
  modify fun store => { store with jobMarkets := store.jobMarkets.insert request.id market }
  announce [event]
  return admission

/-- Lists an idle node in a market. -/
def listNode (market node : Key) (stake : Stake) (now : Int64) : Action NodeAdmission := do
  let capacity := (← get).config.capacity
  let (admission, event) ← onMarket market (Desk.listNode node stake capacity now)
  announce [event]
  return admission

def delistNode (market node : Key) (now : Int64) : Action Unit := do
  let event ← onMarket market (Desk.delistNode node now)
  announce [event]

/-- Completes a job of any market and counts it for its node. -/
def finishJob (job node : Key) (result : Digest) (now : Int64) : Action Job := do
  let market ← marketOfJob job
  let config := (← get).config
  let (finished, event) ← onMarket market (Desk.finishJob job node result config now)
  updateReputation node fun reputation =>
    reputation.afterCompletion finished.executionSeconds finished.price now
  announce [event]
  return finished

def cancelJob (job client : Key) (now : Int64) : Action Job := do
  let market ← marketOfJob job
  let (stopped, event) ← onMarket market (Desk.cancelJob job client now)
  announce [event]
  return stopped

/-- Ends a late job of any market and counts it against its node. -/
def timeoutJob (job : Key) (now : Int64) : Action Job := do
  let market ← marketOfJob job
  let expiry := (← get).config.expiry
  let (ended, event) ← onMarket market (Desk.timeoutJob job expiry now)
  noteTimeout now ended
  announce [event]
  return ended

/-- Ends every job of a market past its deadline, and tells which ones ended, oldest first. -/
def sweep (market : Key) (now : Int64) : Action (List Key) := do
  let expiry := (← get).config.expiry
  let ended ← onMarket market (Desk.sweep expiry now)
  ended.forM fun entry => noteTimeout now entry.1
  announce (ended.map Prod.snd)
  return ended.map fun entry => entry.1.id

/-- Funds that enter from outside. Tells the new balance. -/
def deposit (account : Key) (amount : Amount) : Action Amount := do
  if amount.isZero then
    throw (.invalidInput .zeroDeposit)
  let (total, balances) ← accept ((← get).balances.credit account amount)
  modify fun store => { store with balances }
  return total

/-- Takes the events since the last time. -/
def takeEvents (store : Store) : List Event × Store :=
  (store.events, { store with events := [] })

def balance (store : Store) (account : Key) : Amount := store.balances.balance account

def venue? (store : Store) (market : Key) : Except MarketError Venue :=
  match store.venues.get? market with
  | some venue => .ok venue
  | none => .error (.marketNotFound market)

def market? (store : Store) (id : Key) : Option Market := (store.venues.get? id).map Venue.market

/-- All markets, ordered by id. -/
def markets (store : Store) : List Market := store.venues.values.map Venue.market

def job? (store : Store) (id : Key) : Option Job := do
  let market ← store.jobMarkets.get? id
  let venue ← store.venues.get? market
  venue.jobs.get? id

def vaultBalance (store : Store) (market : Key) : Except MarketError Amount :=
  (store.venue? market).map fun venue => venue.vault.balance

/-- The jobs of a market, oldest first. -/
def jobsOf (store : Store) (market : Key) : Except MarketError (List Job) :=
  (store.venue? market).map Venue.jobsByAge

def reputation? (store : Store) (node : Key) : Option Reputation := store.reputations.get? node

/-- Checks the ledger of one market. -/
def audit (store : Store) (market : Key) : Except MarketError Unit := do
  (← store.venue? market).audit

end Store

/-- What can be asked of a store to do. -/
inductive Operation where
  | createMarket (authority : Key) (params : MarketParams)
  | createJob (market client : Key) (request : JobRequest)
  | listNode (market node : Key) (stake : Stake)
  | delistNode (market node : Key)
  | finishJob (job node : Key) (result : Digest)
  | cancelJob (job client : Key)
  | timeoutJob (job : Key)
  | sweep (market : Key)
  | deposit (account : Key) (amount : Amount)
  deriving DecidableEq

/-- What an operation answers. -/
inductive Reply where
  | marketOpened (id : Key)
  | jobAdmitted (admission : JobAdmission)
  | nodeAdmitted (admission : NodeAdmission)
  | nodeDelisted
  | jobSettled (job : Job)
  | swept (jobs : List Key)
  | balance (total : Amount)
  deriving DecidableEq

namespace Operation

/-- Carries out an operation at the time that the clock shows. -/
def perform (now : Int64) : Operation → Action Reply
  | createMarket authority params => .marketOpened <$> Store.createMarket authority params now
  | createJob market client request => .jobAdmitted <$> Store.createJob market client request now
  | listNode market node stake => .nodeAdmitted <$> Store.listNode market node stake now
  | delistNode market node => (fun _ => .nodeDelisted) <$> Store.delistNode market node now
  | finishJob job node result => .jobSettled <$> Store.finishJob job node result now
  | cancelJob job client => .jobSettled <$> Store.cancelJob job client now
  | timeoutJob job => .jobSettled <$> Store.timeoutJob job now
  | sweep market => .swept <$> Store.sweep market now
  | deposit account amount => .balance <$> Store.deposit account amount

end Operation

namespace Store

/-- The answer to an operation and the store after it, whether it succeeds or not. -/
def apply (store : Store) (now : Int64) (operation : Operation) :
    Except MarketError Reply × Store :=
  match operation.perform now store with
  | .ok reply next => (.ok reply, next)
  | .error cause next => (.error cause, next)

end Store

end ComputeMarket
