import ComputeMarket.CommandLine
import ComputeMarket.Failure
import ComputeMarket.Json.Reader

/-
This file defines what a command does to a ledger, and what an invocation does to the files of
a directory.
-/

namespace ComputeMarket

namespace Venue

/-- A market beside the balance of its vault. -/
def view (venue : Venue) : MarketView := ⟨venue.market, venue.vault.balance⟩

end Venue

namespace Store

def view? (store : Store) (id : Key) : Option MarketView := (store.venues.get? id).map Venue.view

/-- All markets, ordered by id. -/
def views (store : Store) : List MarketView := store.venues.values.map Venue.view

end Store

/-- A run of a command on a store, which may fail for reasons of its own. -/
abbrev Run (α : Type) := EStateM Failure Store α

namespace Run

/-- An operation of the store. -/
def ofAction {α : Type} (action : Action α) : Run α := EStateM.adaptExcept .rejected action

/-- The answer to a question, which leaves the store as it is. -/
def ofAnswer {α : Type} : Except Failure α → Run α
  | .ok value => pure value
  | .error failure => throw failure

def showMarket (id : Key) : Run Report := do
  match (← get).view? id with
  | some view => return .market view
  | none => throw (.absent .market id)

def showJob (id : Key) : Run Report := do
  match (← get).job? id with
  | some job => return .job job
  | none => throw (.absent .job id)

end Run

namespace Command

/-- Carries out a command and reports on it. The fresh key is the id of a job that is given
none, and the identity that is made on request. -/
def perform (now : Int64) (fresh : Key) : Command → Run Report
  | keygen => return .key fresh
  | deposit account amount => do
    return .balance account (← Run.ofAction (Store.deposit account amount))
  | balance account => do
    return .balance account ((← get).balance account)
  | createMarket authority params => do
    Run.showMarket (← Run.ofAction (Store.createMarket authority params now))
  | showMarket id => Run.showMarket id
  | listMarkets => do
    return .markets (← get).views
  | createJob order => do
    let id := order.id.getD fresh
    let request : JobRequest :=
      { id, definition := order.definition, vram := order.vram, gpu := order.gpu }
    let admission ← Run.ofAction (Store.createJob order.market order.client request now)
    return .jobCreated id admission
  | showJob id => Run.showJob id
  | listJobs market => do
    return .jobs market (← Run.ofAnswer (((← get).jobsOf market).mapError .rejected))
  | finishJob id node result => do
    return .job (← Run.ofAction (Store.finishJob id node result now))
  | cancelJob id client => do
    return .job (← Run.ofAction (Store.cancelJob id client now))
  | timeoutJob id => do
    return .job (← Run.ofAction (Store.timeoutJob id now))
  | listNode market node stake => do
    return .nodeListed node (← Run.ofAction (Store.listNode market node stake now))
  | delistNode market node => do
    Run.ofAction (Store.delistNode market node now)
    return .message s!"Delisted node {node} from market {market}" true
  | showNode node => do
    let store ← get
    return .node node (store.balance node) ((store.reputation? node).getD .fresh)
  | sweep market => do
    return .swept market (← Run.ofAction (Store.sweep market now))

end Command

/-- What reading a path gives. -/
abbrev Reader := String → Except FileFault String

namespace Config

def ofText? (text : String) : Option Config := (Json.ofText? text).bind ofJson?

/-- The configuration in a file, or the standard one if no file is named. -/
def load (read : Reader) : Option String → Except Failure Config
  | none => .ok {}
  | some path => do
    let text ← (read path).mapError (.unreadableConfig path)
    let some config := ofText? text | throw (.malformedConfig path)
    config.validate.mapError .invalidConfig
    return config

end Config

namespace Snapshot

def ofText? (text : String) : Option Snapshot := (Json.ofText? text).bind ofJson?

/-- The text of a ledger file. -/
def text (snapshot : Snapshot) : String := snapshot.toJson.text .indented ++ "\n"

end Snapshot

namespace Store

/-- The store in a ledger file. Where no file is, an empty store begins. -/
def load (read : Reader) (config : Config) (path : String) : Except Failure Store :=
  match read path with
  | .ok text =>
    match Snapshot.ofText? text with
    | some snapshot => (restore snapshot config).mapError (.inconsistentLedger path)
    | none => .error (.malformedLedger path)
  | .error fault =>
    if fault.isAbsence then (new config).mapError (.inconsistentLedger path)
    else .error (.unreadableLedger path fault)

end Store

/-- What an invocation prints, and the text that its ledger file is to have if it changes. -/
structure Effect where
  output : String
  ledger : Option String
  deriving DecidableEq

namespace Invocation

/-- Carries out an invocation at a time of day. -/
def perform (invocation : Invocation) (read : Reader) (time : Int64) (fresh : Key) :
    Except Failure Effect := do
  let command := invocation.command
  if command = .keygen then
    return { output := (Report.key fresh).render invocation.style, ledger := none }
  let config ← Config.load read invocation.config
  let store ← Store.load read config invocation.ledger
  match command.perform (invocation.now.getD time) fresh store with
  | .ok report after =>
    return {
      output := report.render invocation.style
      ledger := if command.mutates then some after.snapshot.text else none }
  | .error failure _ => throw failure

end Invocation

/-- What a command finds when it starts. -/
structure Surroundings where
  /-- The path of the ledger that the environment gives. -/
  ledger : Option String := none
  /-- The time of day. -/
  time : Int64
  /-- A key that was never used. -/
  fresh : Key

/-- How a program run ends. -/
inductive Outcome where
  | refused (refusal : CommandLine.Refusal)
  | failed (failure : Failure)
  | done (command : Command) (output : String)
  deriving DecidableEq

namespace Directory

/-- Carries out an invocation on the files of a directory. -/
def perform (directory : Directory) (invocation : Invocation) (time : Int64) (fresh : Key) :
    Except Failure (String × Directory) := do
  let effect ← invocation.perform directory.read time fresh
  match effect.ledger with
  | none => return (effect.output, directory)
  | some text =>
    let path := invocation.ledger
    let next ← (directory.write path text).mapError (.unsavedLedger path)
    return (effect.output, next)

/-- What comes of a command line, and the files after it. -/
def run (directory : Directory) (surroundings : Surroundings) (arguments : List String) :
    Outcome × Directory :=
  match Invocation.ofArguments surroundings.ledger arguments with
  | .error refusal => (.refused refusal, directory)
  | .ok invocation =>
    match directory.perform invocation surroundings.time surroundings.fresh with
    | .ok (output, next) => (.done invocation.command output, next)
    | .error failure => (.failed failure, directory)

end Directory

end ComputeMarket
