import GridDispatch.Workflow.Transition

/-!
# The sweep for late solicitations

An acceptance that is not followed by anything in time is marked late. The sweep finds the
candidates first and then makes one transition after the other; a candidate that somebody else has
moved on or taken away is passed over, and a failure of the store ends the sweep.
-/

namespace GridDispatch

/-- The transition that marks a solicitation late. -/
def Transition.late (id : Int) : Transition := ⟨id, none, .system, .late, none⟩

/-- The content of the update that a solicitation was marked late; the company is null if the
solicitation cannot be read. -/
def lateContent (id : Int) (companyCode : Option String) : Json :=
  .obj [("id", .int id),
    ("status", .str Status.late.name),
    ("previous_status", .str Status.accepted.name),
    ("company_code", Json.ofText? companyCode)]

/-- Errors that concern one candidate only. -/
def WorkflowError.concernsOne (e : WorkflowError) : Bool :=
  match e.kind with
  | .conflict _ | .unauthorized | .notFound => true
  | _ => false

/-- Announces to everybody that a solicitation was marked late. -/
def Service.announceLate (s : Service) (id : Int) : Service :=
  let companyCode := match s.ledger.find? id with
    | .ok (some view) => some view.solicitation.companyCode
    | _ => none
  (s.announce id none .statusChanged (lateContent id companyCode) none).2

namespace Shared

/-- Marks candidates late in turn, and gives those that were. -/
def markEach (s : Shared) : List Int → Except WorkflowError (List Int) × Shared
  | [] => (.ok [], s)
  | id :: ids =>
    match (Transition.late id).apply s with
    | (.ok _, s) =>
      match markEach { s with service := s.service.announceLate id } ids with
      | (.ok marked, s) => (.ok (id :: marked), s)
      | (.error e, s) => (.error e, s)
    | (.error e, s) => if e.concernsOne then markEach s ids else (.error e, s)

/-- Marks late what was accepted before the cutoff: now, less the time that is allowed. -/
def markLate (s : Shared) : Except WorkflowError (List Int) × Shared :=
  let (now, s) := s.readClock
  let cutoff := wrap (now - s.service.settings.lateAfter)
  s.markEach (s.service.ledger.stale cutoff)

end Shared

inductive SweepOutcome
  | completed (marked : List Int)
  | skipped
  | failed (error : WorkflowError)
  deriving DecidableEq, Repr

/-- Runs the sweep. A round that comes while another is running is skipped. -/
structure Sweeper where
  running : Bool
  deriving DecidableEq, Repr

namespace Sweeper

def idle : Sweeper := ⟨false⟩

/-- Starts a round, unless one is running. -/
def start? (w : Sweeper) : Option Sweeper :=
  if w.running then none else some ⟨true⟩

/-- A whole round. -/
def round (w : Sweeper) (s : Shared) : SweepOutcome × Shared :=
  match w.start? with
  | none => (.skipped, s)
  | some _ =>
    match s.markLate with
    | (.ok marked, s) => (.completed marked, s)
    | (.error e, s) => (.failed e, s)

/-- The seconds between rounds: the environment's text if it is a count above zero, else what is
set; never less than one. -/
def interval (environment : Option String) (settings : Settings) : Nat :=
  let asked := environment.bind fun text =>
    match readCount text with
    | .ok n => if n = 0 then none else some n
    | .error _ => none
  max 1 (asked.getD settings.sweepInterval)

end Sweeper

end GridDispatch
