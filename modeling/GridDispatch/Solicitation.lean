import GridDispatch.Params
import GridDispatch.Status

/-!
# Solicitations

A solicitation is an envelope, which never changes, and a list of status events, which only grows.
`State.ofEvents?` reads the standing of a solicitation off its events: the newest is the head, the
oldest tells when it was created. Events of one second are told apart by their ids.
-/

namespace GridDispatch

/-- A solicitation that passed validation and is not stored yet. -/
structure NewSolicitation where
  equipment : Equipment
  action : Action
  substationCode : String
  companyCode : String
  params : Params
  deriving DecidableEq, Repr

/-- The envelope of a stored solicitation; `companyCode` owns the substation. -/
structure Solicitation where
  id : Int
  equipment : Equipment
  action : Action
  substationCode : String
  companyCode : String
  params : Params
  requesterId : String
  groupId : Option String
  deriving DecidableEq, Repr

/-- Solicitations that were sent in together; `creationTotalTime` is the time that the sender took
to put them together, in milliseconds. -/
structure Group where
  groupId : String
  requesterId : String
  creationTotalTime : Int
  createdAt : Int
  deriving DecidableEq, Repr

/-- A change of status. An event without an actor was made by the sweep. -/
structure Event where
  eventId : Int
  solicitationId : Int
  actor : Option String
  status : Status
  time : Int
  justification : Option String
  deriving DecidableEq, Repr

/-- `a` is at least as new as `b`. -/
def Event.newer (a b : Event) : Bool :=
  decide (b.time < a.time) || (decide (a.time = b.time) && decide (b.eventId ≤ a.eventId))

/-- The head that a writer has seen. -/
structure Marker where
  headEventId : Int
  status : Status
  deriving DecidableEq, Repr

/-- The standing of a solicitation; `events` holds the newest first. -/
structure State where
  status : Status
  createdAt : Int
  updatedAt : Int
  headEventId : Int
  events : List Event
  deriving DecidableEq, Repr

/-- The events with the newest first; events that are equally new stay in their order. -/
def newestFirst (events : List Event) : List Event :=
  events.mergeSort Event.newer

def State.ofEvents? (events : List Event) : Option State :=
  match newestFirst events with
  | [] => none
  | head :: rest =>
    let first := (head :: rest).getLast (by simp)
    some ⟨head.status, first.time, head.time, head.eventId, head :: rest⟩

def State.marker (s : State) : Marker := ⟨s.headEventId, s.status⟩

/-- A solicitation with its standing. -/
structure View where
  solicitation : Solicitation
  status : Status
  createdAt : Int
  updatedAt : Int
  events : List Event
  deriving DecidableEq, Repr

def View.of (solicitation : Solicitation) (s : State) : View :=
  ⟨solicitation, s.status, s.createdAt, s.updatedAt, s.events⟩

def View.id (v : View) : Int := v.solicitation.id

theorem Event.newer_iff {a b : Event} :
    a.newer b = true ↔ b.time < a.time ∨ a.time = b.time ∧ b.eventId ≤ a.eventId := by
  simp [newer]

theorem Event.newer_trans (a b c : Event) (hab : a.newer b = true) (hbc : b.newer c = true) :
    a.newer c = true := by
  rw [newer_iff] at *; omega

theorem Event.newer_total (a b : Event) : (a.newer b || b.newer a) = true := by
  rw [Bool.or_eq_true, newer_iff, newer_iff]; omega

theorem newestFirst_perm (events : List Event) : (newestFirst events).Perm events :=
  List.mergeSort_perm ..

theorem newestFirst_sorted (events : List Event) :
    (newestFirst events).Pairwise fun a b => a.newer b = true :=
  List.pairwise_mergeSort Event.newer_trans Event.newer_total _

end GridDispatch
