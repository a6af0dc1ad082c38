import GridDispatch.Workflow.Service

/-!
# Transitions

A transition gives a solicitation a new status. It reads the standing, asks the authority, and
writes an event only if the head is still the one that it has read; a head that was lost is tried
once more. The event is not older than the head that it replaces, so it is the head after it.
-/

namespace GridDispatch

structure Transition where
  id : Int
  actor : Option String
  role : Role
  requested : Status
  justification : Option String
  deriving DecidableEq, Repr

/-- The event of a transition and the status that it was made from. -/
structure Applied where
  eventId : Int
  source : Status
  deriving DecidableEq, Repr

namespace Transition

/-- Reads, decides and writes once. -/
def attempt (t : Transition) (s : Shared) : Except WorkflowError Applied × Shared :=
  match s.service.ledger.state? t.id with
  | .error e => (.error (.ofStore e), s)
  | .ok none => (.error (.noSolicitation t.id), s)
  | .ok (some state) =>
    let (now, s) := s.readClock
    match s.service.authority.check t.role state.status t.requested state.createdAt now with
    | .error refusal => (.error (.refused refusal), s)
    | .ok () =>
      match s.service.ledger.appendIfCurrent t.id state.marker t.actor t.requested
          (max now state.updatedAt) t.justification with
      | .error e => (.error (.ofStore e), s)
      | .ok (eventId, ledger) => (.ok ⟨eventId, state.status⟩, s.withLedger ledger)

/-- Attempts it, and once more after a lost head. -/
def apply (t : Transition) (s : Shared) : Except WorkflowError Applied × Shared :=
  match t.attempt s with
  | (.error (.concurrent _), s) => t.attempt s
  | result => result

end Transition

end GridDispatch
