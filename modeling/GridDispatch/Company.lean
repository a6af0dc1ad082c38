import GridDispatch.Named

/-!
# Companies

The operator of the grid, `ons`, asks; the transmission companies act. `Role` is the part that a
party plays when the status of a solicitation is to change. A company is known by its code, which
may be any text, and a code that names no company plays no part.
-/

namespace GridDispatch

inductive Company
  | ons
  | cteep
  | chesf
  deriving DecidableEq, Repr

namespace Company

def name : Company → String
  | ons => "ONS"
  | cteep => "CTEEP"
  | chesf => "CHESF"

instance : Named Company where
  all := [ons, cteep, chesf]
  name := name
  mem_all a := by cases a <;> simp
  name_inj {a b} h := by revert h; cases a <;> cases b <;> decide

def isOperator : Company → Bool
  | ons => true
  | _ => false

/-- The code of the operator of the grid. -/
def operatorCode : String := ons.name

end Company

/-- The part that a party plays when a status is to change; `system` is the sweep for late ones. -/
inductive Role
  | operator
  | transmission
  | system
  | unknown
  deriving DecidableEq, Repr

namespace Role

def name : Role → String
  | operator => "OPERATOR"
  | transmission => "TRANSMISSION"
  | system => "SYSTEM"
  | unknown => "UNKNOWN"

instance : Named Role where
  all := [operator, transmission, system, unknown]
  name := name
  mem_all a := by cases a <;> simp
  name_inj {a b} h := by revert h; cases a <;> cases b <;> decide

/-- The role of the company with the given code. -/
def ofCompanyCode (code : String) : Role :=
  match (ofName? code : Option Company) with
  | some company => if company.isOperator then operator else transmission
  | none => unknown

end Role

end GridDispatch
