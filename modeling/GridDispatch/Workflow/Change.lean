import GridDispatch.Workflow.Transition

/-!
# Changing a status

A user asks for a new status of a solicitation. The user must belong to a company, and a
transmission company changes its own solicitations only; then the change is made as a transition
in the role of that company, and announced.
-/

namespace GridDispatch

structure ChangeRequest where
  id : Int
  actor : String
  status : String
  justification : Option String
  deriving DecidableEq, Repr

structure ChangeReceipt where
  solicitationId : Int
  status : Status
  /-- The token of the update, if it could be recorded. -/
  streamToken : Option Int
  deriving DecidableEq, Repr

/-- The content of the update that a user changed a status. -/
def changedContent (t : Transition) (source : Status) (solicitation : Solicitation) : Json :=
  .obj [("id", .int t.id),
    ("status", .str t.requested.name),
    ("previous_status", .str source.name),
    ("company_code", .str solicitation.companyCode),
    ("substation", .str solicitation.substationCode),
    ("justification", Json.ofText? t.justification)]

namespace Service

/-- The company that a user acts for. -/
def companyOf (s : Service) (user : String) : Except WorkflowError String :=
  match s.directory.companyOf user with
  | .error outage => .error (.unavailable outage)
  | .ok none => .error .userWithoutCompany
  | .ok (some companyCode) => .ok companyCode

/-- The view of a solicitation that a request names. -/
def view (s : Service) (id : Int) : Except WorkflowError View :=
  match s.ledger.find? id with
  | .error e => .error (.ofStore e)
  | .ok none => .error (.noSolicitation id)
  | .ok (some view) => .ok view

/-- The transition that a request amounts to, with the solicitation that it is about. -/
def checkChange (s : Service) (r : ChangeRequest) :
    Except WorkflowError (Transition × Solicitation) := do
  let companyCode ← s.companyOf r.actor
  let view ← s.view r.id
  match ofName? (Text.trim r.status) with
  | none => .error (.badRequest (.unknownStatus r.status))
  | some requested =>
    let role := Role.ofCompanyCode companyCode
    if role = .transmission ∧ view.solicitation.companyCode ≠ companyCode then
      .error .otherCompany
    else
      .ok (⟨r.id, some r.actor, role, requested, r.justification.bind Text.filled?⟩,
        view.solicitation)

end Service

namespace Shared

def changeStatus (s : Shared) (r : ChangeRequest) : Except WorkflowError ChangeReceipt × Shared :=
  match s.service.checkChange r with
  | .error e => (.error e, s)
  | .ok (t, solicitation) =>
    match t.apply s with
    | (.error e, s) => (.error e, s)
    | (.ok applied, s) =>
      let (token, service) := s.service.announce t.id t.actor .statusChanged
        (changedContent t applied.source solicitation)
        (s.service.directory.recipients solicitation.companyCode)
      (.ok ⟨t.id, t.requested, token⟩, { s with service })

end Shared

end GridDispatch
