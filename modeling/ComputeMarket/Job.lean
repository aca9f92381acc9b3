import ComputeMarket.Config
import ComputeMarket.Digest
import ComputeMarket.Time

/-
This file defines jobs and the moves of their lifecycle.
-/

namespace ComputeMarket

/-- The vendor that a job asks for. -/
inductive Gpu where
  | any
  | nvidia
  | amd
  deriving DecidableEq, Inhabited

namespace Gpu

def name : Gpu → String
  | any => "any"
  | nvidia => "nvidia"
  | amd => "amd"

instance : ToString Gpu := ⟨name⟩

/-- The kind of graphics card with a number. -/
def ofNumber : Nat → Except MarketError Gpu
  | 0 => .ok any
  | 1 => .ok nvidia
  | 2 => .ok amd
  | number => .error (.invalidInput (.unknownGpuNumber number))

/-- The name may be written in either case of the ASCII letters. -/
def ofName (given : String) : Except MarketError Gpu :=
  let name := given.map Char.toLower
  if name = "any" then .ok any
  else if name = "nvidia" then .ok nvidia
  else if name = "amd" then .ok amd
  else .error (.invalidInput (.unknownGpuName name))

end Gpu

/-- What a client asks for when it creates a job. -/
structure JobRequest where
  id : Key
  definition : Digest
  /-- The least memory of the card, in gigabytes. -/
  vram : UInt8
  gpu : Gpu
  deriving DecidableEq

/-- The record of a job. -/
structure Job where
  id : Key
  market : Key
  client : Key
  /-- The bound node, from the match on. -/
  node : Option Key
  definition : Digest
  /-- The digest of the result, zero until the job is completed. -/
  result : Digest
  price : Amount
  timeout : Int64
  vram : UInt8
  gpu : Gpu
  state : JobState
  created : Int64
  /-- The time of the match, zero before it. -/
  started : Int64
  /-- The time of the settlement, zero before it. -/
  ended : Int64
  deriving DecidableEq

namespace Job

/-- A new job, waiting for a node. -/
def ofRequest (request : JobRequest) (market client : Key) (price : Amount)
    (timeout now : Int64) : Job where
  id := request.id
  market := market
  client := client
  node := none
  definition := request.definition
  result := .zero
  price := price
  timeout := timeout
  vram := request.vram
  gpu := request.gpu
  state := .queued
  created := now
  started := 0
  ended := 0

/-- Checks that a job may come to another state. -/
def allow (job : Job) (target : JobState) : Except MarketError Unit :=
  if job.state.canBecome target then .ok ()
  else .error (.invalidTransition job.id job.state target)

/-- Binds a node. -/
def start (job : Job) (node : Key) (now : Int64) : Except MarketError Job := do
  job.allow .running
  if job.node.isSome then throw (.violation (.jobHasNode job.id))
  return { job with node := some node, state := .running, started := now }

/-- Completes a job with its result. -/
def complete (job : Job) (result : Digest) (now : Int64) : Except MarketError Job := do
  job.allow .completed
  return { job with result := result, state := .completed, ended := now }

def stop (job : Job) (now : Int64) : Except MarketError Job := do
  job.allow .stopped
  return { job with state := .stopped, ended := now }

def timeOut (job : Job) (now : Int64) : Except MarketError Job := do
  job.allow .timedOut
  return { job with state := .timedOut, ended := now }

/-- The price of an open job is still in escrow. -/
def isOpen (job : Job) : Bool := job.state.isOpen

/-- The last moment at which the job has not timed out. -/
def deadline (job : Job) (expiry : Expiry) : Option Int64 :=
  match job.state, expiry with
  | .running, _ => some (Time.after job.started job.timeout)
  | .queued, .queuedAndRunning => some (Time.after job.created job.timeout)
  | _, _ => none

/-- Whether the deadline of a job has passed. -/
def isExpired (job : Job) (now : Int64) (expiry : Expiry) : Bool :=
  (job.deadline expiry).any (· < now)

/-- The seconds from start to end, zero for a job without a node. -/
def executionSeconds (job : Job) : Count :=
  if job.node.isNone then .zero
  else .ofNat (Time.secondsBetween job.started job.ended)

/-- Jobs are listed oldest first, those of one age by their ids. -/
def isOlder (left right : Job) : Bool :=
  left.created < right.created ||
    (left.created == right.created && left.id.number ≤ right.id.number)

/-- Puts a job before the first younger one. -/
def placeByAge (job : Job) : List Job → List Job
  | [] => [job]
  | first :: rest =>
    if job.isOlder first then job :: first :: rest else first :: placeByAge job rest

/-- Puts jobs in the order of age. -/
def sortByAge (jobs : List Job) : List Job := jobs.foldr placeByAge []

/-- A job that is put in its place is there once more. -/
theorem placeByAge_perm (job : Job) (jobs : List Job) :
    (job.placeByAge jobs).Perm (job :: jobs) := by
  induction jobs with
  | nil => exact .refl _
  | cons first rest inductionHypothesis =>
      unfold placeByAge
      split
      · exact .refl _
      · exact (inductionHypothesis.cons first).trans (.swap job first rest)

/-- Sorting keeps the jobs. -/
theorem sortByAge_perm (jobs : List Job) : (sortByAge jobs).Perm jobs := by
  induction jobs with
  | nil => exact .refl _
  | cons first rest inductionHypothesis =>
      exact (placeByAge_perm first _).trans (inductionHypothesis.cons first)

end Job

end ComputeMarket
