import Ducp.Library.Checked
import Ducp.Library.Buffer
import Ducp.Library.MapSum
import Ducp.Library.Run
import Ducp.Library.Fade
import Ducp.Library.Lock
import Ducp.Library.Session
import Ducp.Library.Borsh
import Ducp.Library.DoubleEntry
import Ducp.Types
import Ducp.Signing
import Ducp.Library.Decimal
import Ducp.Library.Serde
import Ducp.Wire
import Ducp.Governance
import Ducp.Ledger.State
import Ducp.Ledger.Transitions
import Ducp.Ledger.Book
import Ducp.Ledger.Effects
import Ducp.Ledger.Events
import Ducp.Ledger.Conservation
import Ducp.Ledger.Phases
import Ducp.Ledger.Faults
import Ducp.Ledger.Consistency
import Ducp.Ledger.Lifecycle
import Ducp.Ledger.Escrow
import Ducp.Ledger.Stakes
import Ducp.Ledger.Clawback
import Ducp.Ledger.Fraud
import Ducp.Library.Reorder
import Ducp.Library.Linear
import Ducp.Library.HashChain
import Ducp.Library.Draw
import Ducp.Library.Unwinding
import Ducp.Ledger.Ordering
import Ducp.Ledger.RewardNeutral
import Ducp.Ledger.StandingNeutral
import Ducp.Ledger.Faultless
import Ducp.Ledger.Accounts
import Ducp.Ledger.Penalties
import Ducp.Ledger.Arithmetic
import Ducp.Ledger.Audit
import Ducp.Ledger.Acceptance
import Ducp.Ledger.Standing
import Ducp.Ledger.Fading
import Ducp.Ledger.DeadEnds
import Ducp.Ledger.Maturity
import Ducp.Ledger.Stranded
import Ducp.Ledger.Verdicts
import Ducp.Ledger.Bystanders
import Ducp.Ledger.Growth
import Ducp.Dvm
import Ducp.Dvm.HostAbi
import Ducp.Dvm.ChunkedIo
import Ducp.Dvm.Metering
import Ducp.Dvm.Limits
import Ducp.Dvm.Outcomes
import Ducp.Verification
import Ducp.Library.Wrapping
import Ducp.Verification.Sealed
import Ducp.Verification.Sampling
import Ducp.Consensus
import Ducp.Consensus.Agreement
import Ducp.Consensus.Following
import Ducp.Consensus.Nonces
import Ducp.Node.Handle
import Ducp.Node.Effects
import Ducp.Node.Quotes
import Ducp.Node.Reexecution
import Ducp.Node.Replication
import Ducp.Node.Rpc
import Ducp.Node.Conviction
import Ducp.Node.Pending
import Ducp.Node.Chain
import Ducp.Node.Views
import Ducp.Node.Blobs
import Ducp.Node.Concurrent
import Ducp.Node.Commitment
import Ducp.Node.Sync
import Ducp.Node.Availability
import Ducp.Node.Honest
import Ducp.Node.Client
import Ducp.Node.Worker
import Ducp.Node.Jobs
import Ducp.Node.Completion
