import GridDispatch.Json.Basic
import GridDispatch.Named

/-!
# Updates and notifications

Every change of a solicitation is recorded as an update; the ids of updates count up and serve as
tokens, so that a reader can ask for what came after the last token that it has seen. A
notification carries a token to the users who may want to read on.
-/

namespace GridDispatch

inductive UpdateKind
  | created
  | statusChanged
  deriving DecidableEq, Repr

namespace UpdateKind

def name : UpdateKind → String
  | created => "CREATED"
  | statusChanged => "STATUS_CHANGED"

instance : Named UpdateKind where
  all := [created, statusChanged]
  name := name
  mem_all a := by cases a <;> simp
  name_inj {a b} h := by revert h; cases a <;> cases b <;> decide

end UpdateKind

structure Update where
  streamId : Int
  solicitationId : Int
  userId : Option String
  kind : UpdateKind
  content : Json

/-- The key of the stream of updates. -/
def streamKey : String := "voltage_control_solicitation_key"

/-- Tells that the stream reaches up to `token`; no recipients means everybody. -/
structure Notification where
  streamKey : String
  token : Int
  recipients : Option (List String)
  deriving DecidableEq, Repr

def Notification.of (token : Int) (recipients : Option (List String)) : Notification :=
  ⟨GridDispatch.streamKey, token, recipients⟩

end GridDispatch
