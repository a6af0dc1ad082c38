import GridDispatch.Workflow.Service

/-!
# Sending solicitations

The operator of the grid sends a batch of raw requests. All of it is checked before anything is
written; then a group with its solicitations is written at once, and each of them is announced.
-/

namespace GridDispatch

structure SubmitReceipt where
  groupId : String
  ids : List Int
  message : String
  deriving DecidableEq, Repr

def createdMessage : String := "Voltage control solicitations created with success."

/-- The content of the update that a solicitation was created. -/
def createdContent (id : Int) (new : NewSolicitation) (groupId : String) : Json :=
  .obj [("id", .int id),
    ("status", .str Status.new.name),
    ("company_code", .str new.companyCode),
    ("substation", .str new.substationCode),
    ("equipment", .str new.equipment.name),
    ("action", .str new.action.name),
    ("group_id", .str groupId)]

/-- By company code, then by substation code. -/
def pairLe (a b : String × String) : Bool :=
  decide (a.1 < b.1) || (a.1 == b.1 && decide (a.2 ≤ b.2))

/-- The substations that solicitations name, each with its company and each once, in order. -/
def namedSubstations (news : List NewSolicitation) : List (String × String) :=
  (news.map fun new => (new.companyCode, new.substationCode)).eraseDups.mergeSort pairLe

namespace Directory

/-- The first of the substations that does not exist. -/
def firstUnknown (d : Directory) (pairs : List (String × String)) :
    Except Outage (Option (String × String)) := do
  let answers ← pairs.mapM fun p => d.hasSubstation p.1 p.2
  return ((pairs.zip answers).find? fun a => !a.2).map Prod.fst

end Directory

namespace Service

/-- The solicitations of a batch, or the first thing that is wrong with it. -/
def checkBatch (s : Service) (companyCode : String) (batch : Batch) :
    Except WorkflowError (List NewSolicitation) :=
  if (ofName? companyCode : Option Company) ≠ some .ons then .error .notOperator
  else if batch.creationTotalTime < 0 then .error (.badRequest .negativeTotalTime)
  else if batch.solicitations.isEmpty then .error (.badRequest .nothingSent)
  else
    match batch.solicitations.mapM validate with
    | .error e => .error (.badRequest (.invalid e))
    | .ok news =>
      match s.directory.firstUnknown (namedSubstations news) with
      | .error outage => .error (.unavailable outage)
      | .ok (some (companyCode, code)) => .error (.missing (.substationOf code companyCode))
      | .ok none => .ok news

/-- Announces solicitations that were created. -/
def announceCreated (s : Service) (requesterId groupId : String) :
    List (Int × NewSolicitation) → Service
  | [] => s
  | (id, new) :: rest =>
    let (_, s) := s.announce id (some requesterId) .created (createdContent id new groupId)
      (s.directory.recipients new.companyCode)
    s.announceCreated requesterId groupId rest

end Service

namespace Shared

/-- Sends a batch; `groupId` is a name that no group has yet. -/
def submit (s : Shared) (requesterId companyCode groupId : String) (batch : Batch) :
    Except WorkflowError SubmitReceipt × Shared :=
  match s.service.checkBatch companyCode batch with
  | .error e => (.error e, s)
  | .ok news =>
    let (now, s) := s.readClock
    match s.service.ledger.createBatch ⟨groupId, requesterId, batch.creationTotalTime, now⟩ news
        .new now with
    | .error e => (.error (.ofStore e), s)
    | .ok (ids, ledger) =>
      let s := s.withLedger ledger
      (.ok ⟨groupId, ids, createdMessage⟩,
        { s with service := s.service.announceCreated requesterId groupId (ids.zip news) })

end Shared

end GridDispatch
