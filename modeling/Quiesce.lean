import Quiesce.Simulation.Transcript
import Quiesce.Proofs.Growth
import Quiesce.Proofs.History
import Quiesce.Proofs.LiveAttempt
import Quiesce.Proofs.StateWrites
import Quiesce.Proofs.Cancellation
import Quiesce.Proofs.GroupOrder
import Quiesce.Proofs.Calls
import Quiesce.Proofs.Coverage
import Quiesce.Proofs.Quiescence
import Quiesce.Proofs.Reports
import Quiesce.Proofs.AttemptOutcome
import Quiesce.Proofs.Superseded
import Quiesce.Proofs.SuspendHolds
import Quiesce.Proofs.Marks
import Quiesce.Proofs.EventStream
import Quiesce.Proofs.Settled
import Quiesce.Proofs.Coalescing
import Quiesce.Proofs.ListenerAccount
import Quiesce.Proofs.Registrations
import Quiesce.Proofs.ListenerOrder
import Quiesce.Proofs.Snapshots
import Quiesce.Proofs.PhaseProgress
import Quiesce.Proofs.SequentialMeaning
import Quiesce.Proofs.QuietHistory
import Quiesce.Proofs.RoundTrip
import Quiesce.Proofs.Erasure
import Quiesce.Proofs.Transparency
import Quiesce.Proofs.Tokens
import Quiesce.Proofs.FailureReports
import Quiesce.Proofs.LateRegistration
import Quiesce.Proofs.Panics
import Quiesce.Proofs.Contexts
import Quiesce.Proofs.Closing
import Quiesce.Proofs.RawStream
import Quiesce.Proofs.Waiting
import Quiesce.Proofs.QuotedText
import Quiesce.Proofs.LogRecord
import Quiesce.Proofs.Emissions
import Quiesce.Proofs.LogTranscript
