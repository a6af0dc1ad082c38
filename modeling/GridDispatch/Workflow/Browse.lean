import GridDispatch.Workflow.Change

/-!
# Reading solicitations and updates

The operator of the grid sees everything. A transmission company sees its own solicitations: it
must name itself when it lists them, and gets the updates that carry its code.
-/

namespace GridDispatch

structure ListRequest where
  companyCode : Option String
  substations : List String
  tableCode : Option String
  excludeExpired : Bool
  fromId : Option Int
  limit : Option Nat
  sort : List String
  deriving DecidableEq, Repr

structure ListResponse where
  solicitations : List View
  count : Nat
  deriving DecidableEq, Repr

/-- The code that a request gives, if it gives one that is not blank. -/
def filledCode (code : Option String) : Option String := code.bind Text.filled?

/-- Hints by name; blanks around a name do not matter. -/
def readHints (texts : List String) : Except WorkflowError (List SortHint) :=
  texts.mapM fun text =>
    match ofName? (Text.trim text) with
    | some hint => .ok hint
    | none => .error (.badRequest (.unknownSort text))

/-- The number from `lo` to `hi` that is nearest to `n`; there is none if the bounds are crossed. -/
def clamp? (lo hi n : Nat) : Option Nat :=
  if hi < lo then none else some (min (max n lo) hi)

/-- The number of rows to list: what is asked for or else the default, from one up to the most. -/
def Settings.listLimit? (c : Settings) (asked : Option Nat) : Option Nat :=
  clamp? 1 c.listMaxLimit (asked.getD c.listDefaultLimit)

namespace Service

def get (s : Service) (viewer : String) (id : Int) : Except WorkflowError View := do
  let view ← s.view id
  if viewer ≠ Company.operatorCode ∧ view.solicitation.companyCode ≠ viewer then
    .error .otherCompany
  else .ok view

/-- The company whose solicitations are listed; nothing means all. -/
def listedCompany (viewer : String) (code : Option String) :
    Except WorkflowError (Option String) :=
  match filledCode code with
  | some code =>
    if (ofName? code : Option Company).isNone then .error (.missing .company)
    else if viewer ≠ Company.operatorCode ∧ code ≠ viewer then .error .otherCompany
    else .ok (some code)
  | none =>
    if viewer ≠ Company.operatorCode then .error (.badRequest .noCompany) else .ok none

/-- The table and the substations that a filter names exist. -/
def checkReferences (s : Service) (companyCode : String) (table : Option String)
    (substations : List String) : Except WorkflowError Unit := do
  match table with
  | none => pure ()
  | some table =>
    match s.directory.hasTable companyCode table with
    | .error outage => .error (.unavailable outage)
    | .ok false => .error (.missing .table)
    | .ok true => pure ()
  match substations.mapM (s.directory.hasSubstation companyCode) with
  | .error outage => .error (.unavailable outage)
  | .ok answers =>
    match (substations.zip answers).find? fun a => !a.2 with
    | some (code, _) => .error (.missing (.substation code))
    | none => pure ()

/-- The filter of a request. -/
def listFilter (s : Service) (viewer : String) (r : ListRequest) : Except WorkflowError Filter := do
  let companyCode ← listedCompany viewer r.companyCode
  let table := filledCode r.tableCode
  let substations := r.substations.filterMap Text.filled?
  if table.isSome ∨ substations ≠ [] then
    match companyCode with
    | none => .error (.badRequest .noCompany)
    | some code => s.checkReferences code table substations
  return ⟨companyCode, substations, table, r.excludeExpired⟩

def list (s : Service) (viewer : String) (r : ListRequest) : Except WorkflowError ListResponse := do
  let filter ← s.listFilter viewer r
  let hints ← readHints r.sort
  match s.settings.listLimit? r.limit with
  | none => .error .crossedLimits
  | some limit =>
    match s.ledger.query s.directory.registry filter ⟨r.fromId, limit⟩ (.ofCompanyCode viewer)
      hints with
    | .error e => .error (.ofStore e)
    | .ok views => .ok ⟨views, views.length⟩

/-- Whether an update carries the code of a company. -/
def concerns (companyCode : String) (u : Update) : Bool :=
  (u.content.member? "company_code").bind Json.text? == some companyCode

/-- The updates after one token up to another that a user can see. -/
def updates (s : Service) (user : String) (start stop : Int) :
    Except WorkflowError (List Update) := do
  if stop < start then .error (.badRequest .tokensReversed)
  let companyCode ← s.companyOf user
  match s.ledger.updatesBetween start stop with
  | .error e => .error (.ofStore e)
  | .ok updates =>
    if companyCode = Company.operatorCode then .ok updates
    else .ok (updates.filter (concerns companyCode))

end Service

end GridDispatch
