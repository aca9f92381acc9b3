import ComputeMarket.Clock
import ComputeMarket.Main
import ComputeMarket.Proofs.Arrival
import ComputeMarket.Proofs.Consistency
import ComputeMarket.Proofs.Conservation
import ComputeMarket.Proofs.Lifecycle
import ComputeMarket.Proofs.Refund
import ComputeMarket.Proofs.Replay
import ComputeMarket.Proofs.Restart
import ComputeMarket.Proofs.Listings
import ComputeMarket.Proofs.Standing
import ComputeMarket.Proofs.Store.Acceptance
import ComputeMarket.Proofs.Radix
import ComputeMarket.Proofs.Text.Identity
import ComputeMarket.Proofs.Json.Token
import ComputeMarket.Proofs.Json.Text
import ComputeMarket.Proofs.Json.Record
import ComputeMarket.Proofs.Format
import ComputeMarket.Proofs.Command
import ComputeMarket.Proofs.Directory
import ComputeMarket.Proofs.Session
import ComputeMarket.Proofs.Fallback
import ComputeMarket.Proofs.Format.Event
import ComputeMarket.Proofs.Format.Text
import ComputeMarket.Proofs.Independence
import ComputeMarket.Proofs.Pairing
import ComputeMarket.Proofs.Deadline
import ComputeMarket.Proofs.Submission
import ComputeMarket.Proofs.Offer
import ComputeMarket.Proofs.Store.Sweep
import ComputeMarket.Proofs.Saving
import ComputeMarket.Proofs.Withdrawal
import ComputeMarket.Proofs.Waiting
import ComputeMarket.Proofs.Text.Amount
import ComputeMarket.Proofs.Text.Decimal
import ComputeMarket.Proofs.Text.Base58
import ComputeMarket.Proofs.Opening
import ComputeMarket.Proofs.Reputation
import ComputeMarket.Proofs.Execution
import ComputeMarket.Proofs.Policy
import ComputeMarket.Proofs.Text.Hex
import ComputeMarket.Proofs.CommandLine.Field
import ComputeMarket.Proofs.Format.Report
import ComputeMarket.Proofs.CommandLine.Grammar
import ComputeMarket.Proofs.Movement
import ComputeMarket.Proofs.Clock
