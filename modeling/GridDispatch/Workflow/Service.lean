import GridDispatch.Bus
import GridDispatch.Ledger.Query
import GridDispatch.Settings
import GridDispatch.Workflow.Error

/-!
# The service

`Service` is all that requests work on. A request takes its time, and others act meanwhile: the
clock is read where that can matter, and `Shared` holds what the others do, one act a reading. An
act is any change of the service.
-/

namespace GridDispatch

structure Service where
  ledger : Ledger
  directory : Directory
  settings : Settings
  bus : Bus
  now : Int

/-- A service with what others do to it at the clock readings to come. -/
structure Shared where
  service : Service
  meanwhile : List (Service → Service)

namespace Service

def authority (s : Service) : Authority := ⟨s.settings.acceptanceWindow⟩

/-- The service with nobody else around. -/
def alone (s : Service) : Shared := ⟨s, []⟩

/-- Records an update and tells the recipients; gives the token. A refused record tells nobody, and
it does not matter whether the bus accepts. -/
def announce (s : Service) (id : Int) (userId : Option String) (kind : UpdateKind) (content : Json)
    (recipients : Option (List String)) : Option Int × Service :=
  match s.ledger.record id userId kind content with
  | .error _ => (none, s)
  | .ok (token, ledger) =>
    (some token, { s with ledger, bus := (s.bus.publish (.of token recipients)).2 })

end Service

namespace Shared

/-- The next act of the others, if there is one, and then the time. -/
def readClock (s : Shared) : Int × Shared :=
  match s.meanwhile with
  | [] => (s.service.now, s)
  | act :: acts => ((act s.service).now, ⟨act s.service, acts⟩)

def withLedger (s : Shared) (ledger : Ledger) : Shared :=
  { s with service := { s.service with ledger } }

end Shared

/-- The users who can see an update of a company: its own and those of the operator, by code point.
Nothing, which means everybody, if they cannot be looked up. -/
def Directory.recipients (d : Directory) (companyCode : String) : Option (List String) :=
  match d.usersOf companyCode, d.usersOf Company.operatorCode with
  | .ok users, .ok operators =>
    some ((users ++ operators).eraseDups.mergeSort fun a b => decide (a ≤ b))
  | _, _ => none

end GridDispatch
