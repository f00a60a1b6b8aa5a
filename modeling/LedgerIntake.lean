import LedgerIntake.CallerBuffer
import LedgerIntake.FileTree
import LedgerIntake.Main
import LedgerIntake.Proofs.Connection
import LedgerIntake.Proofs.Batch.Amplification
import LedgerIntake.Proofs.Batch.Boundary
import LedgerIntake.Proofs.Batch.Encoding
import LedgerIntake.Proofs.Batch.Hashes
import LedgerIntake.Proofs.Batch.Narrowest
import LedgerIntake.Proofs.Batch.Truncation
import LedgerIntake.Proofs.Block.Rounding
import LedgerIntake.Proofs.CallerBuffer
import LedgerIntake.Proofs.Canonical.Identity
import LedgerIntake.Proofs.Canonical.NumberText
import LedgerIntake.Proofs.Canonical.Report
import LedgerIntake.Proofs.Canonical.Rereading
import LedgerIntake.Proofs.Canonical.Rfc8785
import LedgerIntake.Proofs.Client.Delivery
import LedgerIntake.Proofs.Connection.Safety
import LedgerIntake.Proofs.Digest.Texts
import LedgerIntake.Proofs.Framing.Boundaries
import LedgerIntake.Proofs.Merkle.Subtree
import LedgerIntake.Proofs.Metrics.Balance
import LedgerIntake.Proofs.Pool.Lookup
