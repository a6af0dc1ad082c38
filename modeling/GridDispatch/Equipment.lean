import GridDispatch.Named

/-!
# Equipment

The kinds of equipment that hold the voltage of the grid, what can be done with each, and the
voltage levels.
-/

namespace GridDispatch

inductive Equipment
  | capacitor
  | reactor
  | transformer
  | synchronous
  deriving DecidableEq, Repr

inductive Action
  | turnOn
  | turnOff
  | rise
  | reduce
  | adjust
  | adjustForTape
  | maximize
  | reset
  | minimize
  deriving DecidableEq, Repr

inductive Voltage
  | kv500
  | kv440
  | kv230
  | kv138
  | kv88
  deriving DecidableEq, Repr

namespace Equipment

def name : Equipment → String
  | capacitor => "CAPACITOR"
  | reactor => "REACTOR"
  | transformer => "TRANSFORMER"
  | synchronous => "SYNCHRONOUS"

instance : Named Equipment where
  all := [capacitor, reactor, transformer, synchronous]
  name := name
  mem_all a := by cases a <;> simp
  name_inj {a b} h := by revert h; cases a <;> cases b <;> decide

/-- What can be asked of the equipment, in the order in which it is offered. -/
def actions : Equipment → List Action
  | capacitor | reactor => [.turnOn, .turnOff]
  | transformer => [.rise, .reduce, .adjust, .adjustForTape]
  | synchronous => [.maximize, .reset, .minimize, .adjust]

end Equipment

namespace Action

def name : Action → String
  | turnOn => "TURN_ON"
  | turnOff => "TURN_OFF"
  | rise => "RISE"
  | reduce => "REDUCE"
  | adjust => "ADJUST"
  | adjustForTape => "ADJUST_FOR_TAPE"
  | maximize => "MAXIMIZE"
  | reset => "RESET"
  | minimize => "MINIMIZE"

instance : Named Action where
  all := [turnOn, turnOff, rise, reduce, adjust, adjustForTape, maximize, reset, minimize]
  name := name
  mem_all a := by cases a <;> simp
  name_inj {a b} h := by revert h; cases a <;> cases b <;> decide

end Action

namespace Voltage

def name : Voltage → String
  | kv500 => "500kV"
  | kv440 => "440kV"
  | kv230 => "230kV"
  | kv138 => "138kV"
  | kv88 => "88kV"

instance : Named Voltage where
  all := [kv500, kv440, kv230, kv138, kv88]
  name := name
  mem_all a := by cases a <;> simp
  name_inj {a b} h := by revert h; cases a <;> cases b <;> decide

end Voltage

end GridDispatch
