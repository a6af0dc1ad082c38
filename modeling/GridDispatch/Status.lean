import GridDispatch.Named

/-!
# Status of a solicitation
-/

namespace GridDispatch

inductive Status
  | new
  | accepted
  | executed
  | blocked
  | contested
  | canceled
  | required
  | late
  deriving DecidableEq, Repr

namespace Status

def name : Status → String
  | new => "NEW"
  | accepted => "ACCEPTED"
  | executed => "EXECUTED"
  | blocked => "BLOCKED"
  | contested => "CONTESTED"
  | canceled => "CANCELED"
  | required => "REQUIRED"
  | late => "LATE"

instance : Named Status where
  all := [new, accepted, executed, blocked, contested, canceled, required, late]
  name := name
  mem_all a := by cases a <;> simp
  name_inj {a b} h := by revert h; cases a <;> cases b <;> decide

end Status

end GridDispatch
