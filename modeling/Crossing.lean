import Crossing.Scenario.Run
import Crossing.Proofs.Value.Equality
import Crossing.Proofs.Handle.Ledger
import Crossing.Proofs.Handle.Refinement
import Crossing.Proofs.Handle.Registry
import Crossing.Proofs.Instance.Exec
import Crossing.Proofs.Instance.Keeps
import Crossing.Proofs.Machine.Run
import Crossing.Proofs.Instance.Chronicle
import Crossing.Proofs.Closure.Deallocation
import Crossing.Proofs.Closure.Pairing
import Crossing.Proofs.Handle.Lasting
import Crossing.Proofs.Text.RoundTrip
import Crossing.Proofs.Instance.Sound
import Crossing.Proofs.Instance.Spans
import Crossing.Proofs.Instance.Ensures
import Crossing.Proofs.Codec.Staged
import Crossing.Proofs.Codec.Walks
import Crossing.Proofs.Instance.Reads
import Crossing.Proofs.Codec.RoundTrip
import Crossing.Proofs.Instance.Answers
import Crossing.Proofs.Codec.Capacity
import Crossing.Proofs.Handle.Accounts
import Crossing.Proofs.Handle.Credits
import Crossing.Proofs.Instance.Tables
import Crossing.Proofs.Codec.Lending
import Crossing.Proofs.Codec.Loans
import Crossing.Proofs.Instance.Twins
import Crossing.Proofs.Codec.Lockstep
import Crossing.Proofs.Codec.Agreement
import Crossing.Proofs.Codec.Slots
import Crossing.Proofs.Codec.Growth
import Crossing.Proofs.Instance.Current
import Crossing.Proofs.Codec.Faults
import Crossing.Proofs.Closure.Uses
import Crossing.Proofs.Closure.Once
import Crossing.Proofs.Closure.Refusals
import Crossing.Proofs.Text.Spelling
import Crossing.Proofs.Codec.Layout
import Crossing.Proofs.Instance.Parses
import Crossing.Proofs.Instance.Decides
import Crossing.Proofs.Codec.Acceptance
import Crossing.Proofs.Codec.Intact
import Crossing.Proofs.Machine.Invocation
import Crossing.Proofs.Machine.Lifecycle
import Crossing.Proofs.Closure.Release
import Crossing.Proofs.Instance.Blocks
import Crossing.Proofs.Codec.Depth
import Crossing.Proofs.Codec.Footprint
import Crossing.Proofs.Codec.Nesting
import Crossing.Proofs.Codec.Accounting
import Crossing.Proofs.Closure.InFlight
import Crossing.Proofs.Closure.Arguments
import Crossing.Proofs.Text.Mending
import Crossing.Proofs.Text.Narrowing
import Crossing.Proofs.Instance.Repeats
import Crossing.Proofs.Codec.Rereading
import Crossing.Proofs.Closure.Transfer
import Crossing.Proofs.Machine.Outcome
import Crossing.Proofs.Number.Exact
import Crossing.Proofs.Instance.Accesses
import Crossing.Proofs.Codec.Numbers
import Crossing.Proofs.Instance.Windows
import Crossing.Proofs.Codec.Offsets
import Crossing.Proofs.Memory.Arena
import Crossing.Proofs.Value.Entries
import Crossing.Proofs.Value.Identity
import Crossing.Proofs.Codec.Objects
import Crossing.Proofs.Instance.Pages
import Crossing.Proofs.Instance.Lengths
