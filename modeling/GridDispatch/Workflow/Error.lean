import GridDispatch.Authority
import GridDispatch.Ledger.Error
import GridDispatch.Registry
import GridDispatch.Validation

/-!
# Errors of the workflow

`WorkflowError` gives the reason why a request was not carried out. Its `kind` tells callers whom to
blame, and its `statusCode` the same as a number.
-/

namespace GridDispatch

/-- What is wrong with a request itself. -/
inductive BadRequest
  | invalid (error : ValidationError)
  | negativeTotalTime
  | nothingSent
  | unknownStatus (text : String)
  | noCompany
  | unknownSort (text : String)
  | tokensReversed
  deriving DecidableEq, Repr

def BadRequest.message : BadRequest → String
  | invalid error => error.message
  | negativeTotalTime => "Invalid creation total time value."
  | nothingSent => "No solicitation informed."
  | unknownStatus text => "Invalid status '" ++ text ++ "'."
  | noCompany => "Company code not informed"
  | unknownSort text => "Invalid sort parameter '" ++ text ++ "'."
  | tokensReversed => "Invalid stream token range."

/-- What a request names and nobody knows. -/
inductive Missing
  | row (entity id : String)
  | company
  | table
  | substation (code : String)
  | substationOf (code companyCode : String)
  deriving DecidableEq, Repr

def Missing.message : Missing → String
  | row entity id => entity ++ " " ++ id ++ " not found."
  | company => "Company not found"
  | table => "Table not found"
  | substation code => "Substation '" ++ code ++ "' not found."
  | substationOf code companyCode =>
    "Substation '" ++ code ++ "' not found for company '" ++ companyCode ++ "'."

inductive WorkflowError
  | badRequest (why : BadRequest)
  | missing (what : Missing)
  /-- Only the operator of the grid sends solicitations. -/
  | notOperator
  | userWithoutCompany
  | otherCompany
  | refused (refusal : Refusal)
  | concurrent (id : Int)
  | store (error : StoreError)
  | unavailable (outage : Outage)
  /-- The program stops, for a page could show no number of rows. -/
  | crossedLimits
  deriving DecidableEq, Repr

/-- Why a request does not go with the state of a solicitation. -/
inductive Conflict
  | noOp
  | invalidTransition
  | expired
  | concurrent
  deriving DecidableEq, Repr

inductive ErrorKind
  | validation
  | notFound
  | unauthorized
  | forbidden
  | conflict (conflict : Conflict)
  | store
  | collaborator
  deriving DecidableEq, Repr

namespace Conflict

def name : Conflict → String
  | noOp => "NO_OP"
  | invalidTransition => "INVALID_TRANSITION"
  | expired => "EXPIRED"
  | concurrent => "CONCURRENT"

instance : Named Conflict where
  all := [noOp, invalidTransition, expired, concurrent]
  name := name
  mem_all a := by cases a <;> simp
  name_inj {a b} h := by revert h; cases a <;> cases b <;> decide

end Conflict

def ErrorKind.statusCode : ErrorKind → Nat
  | validation => 400
  | notFound => 404
  | unauthorized => 401
  | forbidden => 403
  | conflict .expired => 429
  | conflict _ => 400
  | store => 500
  | collaborator => 502

namespace WorkflowError

def message : WorkflowError → String
  | badRequest why => why.message
  | missing what => what.message
  | notOperator => "User should to belong ONS."
  | userWithoutCompany => "User does not belong to any company."
  | otherCompany => "User can only access the solicitations of your company"
  | refused refusal => refusal.message
  | concurrent id =>
    "Solicitation " ++ Text.write id ++ " was modified concurrently, try again."
  | store error => "数据存储错误: " ++ error.message
  | unavailable outage => "外部协作者调用失败: " ++ outage.message
  | crossedLimits => "assertion failed: min <= max"

def kind : WorkflowError → ErrorKind
  | badRequest _ => .validation
  | missing _ => .notFound
  | notOperator | userWithoutCompany => .unauthorized
  | otherCompany => .forbidden
  | refused (.noChange _) => .conflict .noOp
  | refused (.noStep ..) => .conflict .invalidTransition
  | refused (.expired ..) => .conflict .expired
  | refused (.notAllowed _) => .unauthorized
  | concurrent _ => .conflict .concurrent
  -- nobody is told the reason of a stop; to whoever asked it is a failure inside
  | store _ | crossedLimits => .store
  | unavailable _ => .collaborator

def statusCode (e : WorkflowError) : Nat := e.kind.statusCode

/-- The equipment that a request was found invalid with. -/
def equipment? : WorkflowError → Option String
  | badRequest (.invalid error) => some error.equipment
  | _ => none

/-- What an error of the ledger means to the one who asked. -/
def ofStore : StoreError → WorkflowError
  | .notFound entity id => missing (.row entity id)
  | .staleHead id _ _ => concurrent id
  | error => store error

def noSolicitation (id : Int) : WorkflowError :=
  missing (.row "Solicitation" (Text.write id))

end WorkflowError

end GridDispatch
