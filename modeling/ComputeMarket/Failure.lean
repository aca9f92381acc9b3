import ComputeMarket.Directory
import ComputeMarket.Error

/-
This file defines the causes for which a command fails once its arguments are accepted.
-/

namespace ComputeMarket

/-- Why a run of the program ends without an answer. -/
inductive Failure where
  | unreadableConfig (path : String) (fault : FileFault)
  | malformedConfig (path : String)
  | invalidConfig (cause : MarketError)
  | unreadableLedger (path : String) (fault : FileFault)
  | malformedLedger (path : String)
  | inconsistentLedger (path : String) (cause : MarketError)
  | rejected (cause : MarketError)
  /-- What was to be shown is not in the ledger. -/
  | absent (entry : Entry) (id : Key)
  | unsavedLedger (path : String) (fault : WriteFault)
  deriving DecidableEq

namespace Failure

/-- The cause, after what was being done when it arose. Errors of the market and of files are
reported with their own cause, which has the same text. -/
def message : Failure → String
  | unreadableConfig path fault =>
    s!"loading engine config: configuration error: {path}: " ++ fault.message
  | malformedConfig path =>
    s!"loading engine config: configuration error: {path}: not a configuration"
  | invalidConfig cause => "loading engine config: configuration error: " ++ cause.message
  | unreadableLedger path fault =>
    s!"loading ledger {path}: IO error: " ++ fault.message ++ ": " ++ fault.message
  | malformedLedger path => s!"loading ledger {path}: ledger error: {path}: not a snapshot"
  | inconsistentLedger path cause =>
    s!"loading ledger {path}: " ++ cause.message ++ ": " ++ cause.message
  | rejected cause => cause.message ++ ": " ++ cause.message
  | absent entry id => s!"not found: {entry} {id}"
  | unsavedLedger path (.noDirectory fault) =>
    s!"saving ledger {path}: IO error: " ++ fault.message ++ ": " ++ fault.message
  | unsavedLedger path (.notPlaced fault) =>
    s!"saving ledger {path}: ledger error: {path}: " ++ fault.message

end Failure

end ComputeMarket
