import ComputeMarket.Amount.Text
import ComputeMarket.Count
import ComputeMarket.Job.State
import ComputeMarket.Key.Base58

/-
This file defines the causes for which the market refuses an operation, with their messages.
-/

namespace ComputeMarket

/-- Input that no state of the market could make acceptable. -/
inductive InputFault where
  | zeroPrice
  | timeoutNotPositive (timeout : Int64)
  | zeroCapacity
  | zeroDefinition
  | zeroResult
  | zeroDeposit
  | unknownGpuNumber (number : Nat)
  | unknownGpuName (name : String)
  | unsupportedVersion (version : UInt32)
  deriving DecidableEq

/-- A disagreement between the parts of a ledger. -/
inductive Violation where
  | emptyTaggedQueue
  | emptyJobQueue
  | queuedJobUnrecorded (job : Key)
  | queuedJobHasNode (job : Key)
  | jobHasNode (job : Key)
  | jobMissingFromQueue (job : Key)
  | vaultShort (vault : Key) (held owed : Amount)
  | jobMisfiled (job market owner : Key)
  | jobRecordedTwice (job : Key)
  | jobInTwoMarkets (job : Key)
  | marketRecordedTwice (market : Key)
  | vaultMismatch (market : Key)
  | malformedQueue (market : Key)
  | queuedJobInState (job : Key) (state : JobState)
  | queueCountMismatch (market : Key) (recorded waiting : Nat)
  | foreignJob (job market : Key)
  | inconsistentNode (job : Key) (state : JobState) (node : Option Key)
  | escrowOverflow (market : Key)
  | escrowMismatch (market : Key) (held owed : Amount)
  deriving DecidableEq

/-- What an operation names by an identity. -/
inductive Entry where
  | job
  | node
  | market
  deriving DecidableEq

/-- Whom a job answers to. -/
inductive Role where
  | boundNode
  | client
  deriving DecidableEq

/-- Where an amount would not fit. -/
inductive Holder where
  | vault (address : Key)
  | account (owner : Key)
  deriving DecidableEq

/-- Why an operation is refused, or which agreement of the parts is broken. -/
inductive MarketError where
  | invalidInput (fault : InputFault)
  | unauthorized (caller : Key) (role : Role) (subject : Key)
  | invalidTransition (job : Key) (source target : JobState)
  | notTimedOut (job : Key) (deadline now : Int64)
  | expired (job : Key) (deadline : Int64)
  | duplicate (entry : Entry) (id : Key)
  | insufficientFunds (required available : Amount)
  | insufficientStake (required provided : Stake)
  | marketNotFound (market : Key)
  | jobNotFound (job : Key)
  | nodeNotQueued (node : Key)
  | queueFull (capacity : Count)
  | overflow (holder : Holder)
  | violation (cause : Violation)
  deriving DecidableEq

/-- The coarse kinds of errors, for callers that only branch on the kind. -/
inductive ErrorKind where
  | invalidInput
  | unauthorized
  | invalidJobState
  | duplicateEntry
  | insufficientFunds
  | insufficientStake
  | notFound
  | queueFull
  | internal
  deriving DecidableEq

/-- The kind that a cause is reported as. -/
def MarketError.kind : MarketError → ErrorKind
  | invalidInput _ | nodeNotQueued _ => .invalidInput
  | unauthorized .. => .unauthorized
  | invalidTransition .. | notTimedOut .. | expired .. => .invalidJobState
  | duplicate .. => .duplicateEntry
  | insufficientFunds .. => .insufficientFunds
  | insufficientStake .. => .insufficientStake
  | marketNotFound _ | jobNotFound _ => .notFound
  | queueFull _ => .queueFull
  | overflow _ | violation _ => .internal

def InputFault.message : InputFault → String
  | zeroPrice => "job price must be non-zero"
  | timeoutNotPositive timeout => s!"job timeout must be positive, got {timeout}"
  | zeroCapacity => "max_queue_len must be greater than zero"
  | zeroDefinition => "job content hash is zero"
  | zeroResult => "result content hash is zero"
  | zeroDeposit => "deposit amount is zero"
  | unknownGpuNumber number => s!"unknown gpu type {number}"
  | unknownGpuName name => s!"unknown gpu type '{name}'"
  | unsupportedVersion version => s!"unsupported snapshot version {version} (expected 1)"

/-- The node of a job, as a consistency message shows it. -/
def nodeDescription : Option Key → String
  | none => "None"
  | some node => s!"Some(Pubkey({node}))"

def Violation.message : Violation → String
  | emptyTaggedQueue => "tagged queue is empty"
  | emptyJobQueue => "queue tagged as jobs is empty"
  | queuedJobUnrecorded job => s!"queued job {job} has no record"
  | queuedJobHasNode job => s!"queued job {job} already has a node"
  | jobHasNode job => s!"job {job} already has a node"
  | jobMissingFromQueue job => s!"queued job {job} is missing from the queue"
  | vaultShort vault held owed => s!"vault {vault} holds {held} but {owed} is owed"
  | jobMisfiled job market owner => s!"job {job} filed under market {market} belongs to {owner}"
  | jobRecordedTwice job => s!"job {job} recorded twice"
  | jobInTwoMarkets job => s!"job {job} appears in more than one market"
  | marketRecordedTwice market => s!"market {market} recorded twice"
  | vaultMismatch market => s!"market {market} vault address mismatch"
  | malformedQueue market => s!"market {market} queue is malformed"
  | queuedJobInState job state => s!"job {job} is queued but {state}"
  | queueCountMismatch market recorded waiting =>
    s!"market {market} has {recorded} queued jobs but {waiting} in the queue"
  | foreignJob job market => s!"job {job} belongs to {market}"
  | inconsistentNode job state node =>
    let shown := nodeDescription node
    s!"job {job} is {state} with node {shown}"
  | escrowOverflow market => s!"escrowed total of market {market} overflows"
  | escrowMismatch market held owed =>
    s!"market {market} vault holds {held} but open jobs total {owed}"

def Entry.name : Entry → String
  | job => "job"
  | node => "node"
  | market => "market"

instance : ToString Entry := ⟨Entry.name⟩

def Role.name : Role → String
  | boundNode => "bound node"
  | client => "client"

instance : ToString Role := ⟨Role.name⟩

def Holder.name : Holder → String
  | .vault address => s!"vault {address}"
  | .account owner => s!"balance of {owner}"

/-- The whole message of an error. -/
def MarketError.message : MarketError → String
  | invalidInput fault => "invalid input: " ++ fault.message
  | unauthorized caller role subject => s!"unauthorized: {caller} is not the {role} of {subject}"
  | invalidTransition job source target =>
    s!"invalid state transition for job {job}: {source} -> {target}"
  | notTimedOut job deadline now =>
    s!"job {job} has not timed out yet (deadline {deadline}, now {now})"
  | expired job deadline => s!"job {job} expired at {deadline}"
  | duplicate entry id => s!"duplicate {entry}: {id}"
  | insufficientFunds required available =>
    s!"insufficient funds: required {required}, available {available}"
  | insufficientStake required provided =>
    s!"insufficient stake: required {required}, provided {provided}"
  | marketNotFound market => s!"market not found: {market}"
  | jobNotFound job => s!"job not found: {job}"
  | nodeNotQueued node => s!"node {node} is not queued"
  | queueFull capacity => s!"queue full: capacity {capacity}"
  | overflow holder => "balance overflow: " ++ holder.name
  | .violation cause => "invariant violated: " ++ cause.message

end ComputeMarket
