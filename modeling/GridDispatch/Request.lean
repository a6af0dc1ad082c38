import GridDispatch.Equipment
import GridDispatch.Json.Basic
import GridDispatch.Text.Blank
import GridDispatch.Text.Numeral

/-!
# Raw requests

A request for a solicitation as it is sent in: names and codes as texts, and five parameter fields
that may hold any JSON. `Fields.normalize` keeps the fields that matter for the equipment and the
action, and `readAmount`, `readVoltage` and `readStaggered` give them their types.
-/

namespace GridDispatch

/-- The parameter fields of a request. -/
structure Fields where
  amount : Json
  voltage : Json
  staggered : Json
  voltagePrimary : Json
  voltageSecondary : Json

structure RawSolicitation where
  equipment : String
  action : String
  substation : String
  companyCode : String
  fields : Fields

/-- Requests that are sent in together, with the time that it took to put them together. -/
structure Batch where
  creationTotalTime : Int
  solicitations : List RawSolicitation

/-- What a field holds once its type is known. -/
inductive Field (α : Type)
  | absent
  | value (a : α)
  | malformed
  deriving DecidableEq, Repr

/-- A text of blanks counts as nothing. -/
def Fields.keep : Json → Json
  | .str s => if Text.trim s = "" then .null else .str s
  | v => v

/-- The fields that matter for the equipment and the action; the others are null. -/
def Fields.normalize (equipment : Equipment) (action : Action) (f : Fields) : Fields :=
  match equipment with
  | .capacitor | .reactor => ⟨keep f.amount, keep f.voltage, keep f.staggered, .null, .null⟩
  | .transformer =>
    ⟨keep f.amount, keep f.voltage, .null, keep f.voltagePrimary, keep f.voltageSecondary⟩
  | .synchronous =>
    ⟨if action = .adjust then keep f.amount else .null, .null, .null, .null, .null⟩

/-- A whole number of 64 bits, as a number or as text. -/
def readAmount : Json → Field Int
  | .null => .absent
  | .int n => if Text.Range.signed.has n then .value n else .malformed
  | .str s =>
    if Text.trim s = "" then .absent
    else match Text.Range.signed.read (Text.trim s) with
      | .ok n => .value n
      | .error _ => .malformed
  | _ => .malformed

def readVoltage : Json → Field Voltage
  | .null => .absent
  | .str s =>
    if Text.trim s = "" then .absent
    else match ofName? (Text.trim s) with
      | some level => .value level
      | none => .malformed
  | _ => .malformed

def readStaggered : Json → Field Bool
  | .null => .absent
  | .bool b => .value b
  | .str s =>
    if Text.trim s = "" then .absent
    else if Text.trim s = "true" then .value true
    else if Text.trim s = "false" then .value false
    else .malformed
  | _ => .malformed

end GridDispatch
