import GridDispatch.Company
import GridDispatch.Status

/-!
# How solicitations are listed

`SortView.buckets` groups the statuses for each side: what is waiting comes first, what is finished
comes last and with its newest first. A list can also be sorted by other hints; a filter and a page
say which solicitations are in it.
-/

namespace GridDispatch

/-- Statuses that are listed together, by the time of the last change. -/
structure Bucket where
  statuses : List Status
  newestFirst : Bool
  deriving DecidableEq, Repr

inductive SortView
  | operator
  | transmission
  deriving DecidableEq, Repr

inductive SortHint
  | status
  | creationTime
  | substation
  deriving DecidableEq, Repr

namespace SortView

def name : SortView → String
  | operator => "Operator"
  | transmission => "Transmission"

instance : Named SortView where
  all := [operator, transmission]
  name := name
  mem_all a := by cases a <;> simp
  name_inj {a b} h := by revert h; cases a <;> cases b <;> decide

/-- The view of the company with the given code. -/
def ofCompanyCode (code : String) : SortView :=
  if code = Company.operatorCode then operator else transmission

def buckets : SortView → List Bucket
  | operator =>
    [⟨[.blocked, .contested, .new, .required], false⟩,
      ⟨[.late, .accepted], false⟩,
      ⟨[.executed, .canceled], true⟩]
  | transmission =>
    [⟨[.late], false⟩,
      ⟨[.accepted], false⟩,
      ⟨[.required], false⟩,
      ⟨[.new], false⟩,
      ⟨[.contested], false⟩,
      ⟨[.blocked, .executed, .canceled], true⟩]

end SortView

namespace SortHint

def name : SortHint → String
  | status => "status"
  | creationTime => "creation_time"
  | substation => "substation"

instance : Named SortHint where
  all := [status, creationTime, substation]
  name := name
  mem_all a := by cases a <;> simp
  name_inj {a b} h := by revert h; cases a <;> cases b <;> decide

end SortHint

/-- Which solicitations are listed; an empty list of substations means all. -/
structure Filter where
  companyCode : Option String
  substations : List String
  tableCode : Option String
  excludeExpired : Bool
  deriving DecidableEq, Repr

/-- The part of a list that is asked for: ids from `fromId` on, at most `limit` of them. -/
structure Page where
  fromId : Option Int
  limit : Nat
  deriving DecidableEq, Repr

end GridDispatch
