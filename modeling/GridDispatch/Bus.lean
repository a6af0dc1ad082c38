import GridDispatch.Update

/-!
# Notification buses

A bus takes notifications and hands those that it accepts to its subscribers. Whether a call is
accepted depends on nothing but its number, so a bus can fail in any pattern.
-/

namespace GridDispatch

structure Bus where
  /-- Whether the call with the given number, counted from zero, is accepted. -/
  accepts : Nat → Bool
  subscribers : Nat
  calls : Nat
  /-- The accepted notifications in order. -/
  accepted : List Notification

namespace Bus

/-- Accepts everything and hands it to nobody. -/
def silent : Bus := ⟨fun _ => true, 0, 0, []⟩

/-- Hands everything to its subscribers, and accepts nothing if there are none. -/
def broadcast (subscribers : Nat) : Bus := ⟨fun _ => subscribers != 0, subscribers, 0, []⟩

/-- Accepts nothing. -/
def failing : Bus := ⟨fun _ => false, 1, 0, []⟩

inductive Fault
  | closed
  deriving DecidableEq, Repr

def Fault.message : Fault → String
  | closed => "channel closed"

def publish (b : Bus) (n : Notification) : Except Fault Unit × Bus :=
  if b.accepts b.calls then
    (.ok (), { b with calls := b.calls + 1, accepted := b.accepted ++ [n] })
  else (.error .closed, { b with calls := b.calls + 1 })

/-- The answers to a series of calls, and the bus after them. -/
def publishAll (b : Bus) : List Notification → List (Except Fault Unit) × Bus
  | [] => ([], b)
  | n :: ns =>
    let (answer, b) := b.publish n
    let (answers, b) := b.publishAll ns
    (answer :: answers, b)

/-- What each subscriber got. -/
def received (b : Bus) : List (List Notification) :=
  List.replicate b.subscribers b.accepted

/-- The bus with the accepted notifications taken away. -/
def drained (b : Bus) : Bus := { b with accepted := [] }

end Bus

end GridDispatch
