import GridDispatch.Ledger.Overwrite
import GridDispatch.Startup
import GridDispatch.Wire.Records
import GridDispatch.Workflow.Sweep
import GridDispatch.Json.Printer
import GridDispatch.Proofs.Lists
import GridDispatch.Proofs.Ledger.History
import GridDispatch.Proofs.Ledger.Onward
import GridDispatch.Proofs.Interference
import GridDispatch.Proofs.Transition
import GridDispatch.Proofs.Announcement
import GridDispatch.Proofs.Ledger.Built
import GridDispatch.Proofs.Requests
import GridDispatch.Proofs.LateSweep
import GridDispatch.Proofs.LateSweep.Happenings
import GridDispatch.Proofs.LateSweep.Candidates
import GridDispatch.Proofs.LateSweep.Survival
import GridDispatch.Proofs.Lifecycle.Journal
import GridDispatch.Proofs.Lifecycle.Run
import GridDispatch.Proofs.Lifecycle.Requests
import GridDispatch.Proofs.Lifecycle
import GridDispatch.Proofs.Listing.Order
import GridDispatch.Proofs.Listing.Shown
import GridDispatch.Proofs.Listing.Query
import GridDispatch.Proofs.Ledger.Stream
import GridDispatch.Proofs.Reader
import GridDispatch.Proofs.Visibility
import GridDispatch.Proofs.Ledger.Batch
import GridDispatch.Proofs.Submission.Check
import GridDispatch.Proofs.Submission
import GridDispatch.Proofs.Ledger.Account
import GridDispatch.Proofs.Recount
import GridDispatch.Proofs.Progress
import GridDispatch.Proofs.TimeLimits.Invariant
import GridDispatch.Proofs.TimeLimits
import GridDispatch.Proofs.Ledger.Growth
import GridDispatch.Proofs.Operations
import GridDispatch.Proofs.Envelopes
import GridDispatch.Proofs.Heads
import GridDispatch.Proofs.Recipients
import GridDispatch.Proofs.Occurrences
import GridDispatch.Proofs.Unheard
import GridDispatch.Proofs.LateSweep.Exact
import GridDispatch.Proofs.Listing.Paging
import GridDispatch.Proofs.Bounds
import GridDispatch.Proofs.Wire
import GridDispatch.Proofs.Settings.Writes
import GridDispatch.Proofs.Validation.Canonical
import GridDispatch.Proofs.ChangeRequest.Exact
import GridDispatch.Proofs.Columns
import GridDispatch.Proofs.Standing
import GridDispatch.Proofs.Validation.Amount
