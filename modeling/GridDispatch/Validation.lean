import GridDispatch.Request
import GridDispatch.Solicitation

/-!
# Validation

`validate` turns a raw request into a solicitation, or says what is wrong with it first. The checks
come in the order equipment, action, parameters; the parameters of switched equipment in the order
amount, voltage, staggered, those of a transformer in the order voltage, amount, primary, secondary.
-/

namespace GridDispatch

inductive ValidationFault
  | unknownEquipment
  | badAction
  | badAmount
  | noVoltage
  | badVoltage
  | noStaggered
  deriving DecidableEq, Repr

/-- A fault and the equipment that it was found with, by name or, if the name is unknown, as sent. -/
structure ValidationError where
  fault : ValidationFault
  equipment : String
  deriving DecidableEq, Repr

def ValidationError.message (e : ValidationError) : String :=
  match e.fault with
  | .unknownEquipment => "Invalid equipment type '" ++ e.equipment ++ "'."
  | .badAction => "Invalid action for equipment type '" ++ e.equipment ++ "'."
  | .badAmount => "Invalid amount value for equipment type '" ++ e.equipment ++ "'."
  | .noVoltage => "Voltage value must be informed for '" ++ e.equipment ++ "'."
  | .badVoltage => "Invalid voltage value for equipment type '" ++ e.equipment ++ "'."
  | .noStaggered => "Staggered value must be informed for '" ++ e.equipment ++ "'."

def leastAmount : Int := 1

/-- The least amount by which the tape of a transformer can be adjusted. -/
def leastTapeAmount : Int := -100000

/-- An amount that is at least `least`. -/
def requiredAmount (least : Int) (v : Json) : Except ValidationFault Int :=
  match readAmount v with
  | .value n => if least ≤ n then .ok n else .error .badAmount
  | _ => .error .badAmount

def optionalVoltage (v : Json) : Except ValidationFault (Option Voltage) :=
  match readVoltage v with
  | .absent => .ok none
  | .value level => .ok (some level)
  | .malformed => .error .badVoltage

def requiredVoltage (v : Json) : Except ValidationFault Voltage :=
  match readVoltage v with
  | .absent => .error .noVoltage
  | .value level => .ok level
  | .malformed => .error .badVoltage

def requiredStaggered (v : Json) : Except ValidationFault Bool :=
  match readStaggered v with
  | .value b => .ok b
  | _ => .error .noStaggered

/-- The parameters in normalized fields. -/
def Fields.params (equipment : Equipment) (action : Action) (f : Fields) :
    Except ValidationFault Params :=
  match equipment with
  | .capacitor | .reactor => do
    let amount ← requiredAmount leastAmount f.amount
    let voltage ← optionalVoltage f.voltage
    let staggered ← requiredStaggered f.staggered
    return .switched amount staggered voltage
  | .transformer => do
    let voltage ← requiredVoltage f.voltage
    let least := if action = .adjustForTape then leastTapeAmount else leastAmount
    let amount ← requiredAmount least f.amount
    let primary ← optionalVoltage f.voltagePrimary
    let secondary ← optionalVoltage f.voltageSecondary
    return .transformer amount voltage primary secondary
  | .synchronous =>
    if action = .adjust then do
      let amount ← requiredAmount leastAmount f.amount
      return .synchronous (some amount)
    else .ok (.synchronous none)

def validate (raw : RawSolicitation) : Except ValidationError NewSolicitation :=
  match (ofName? (Text.trim raw.equipment) : Option Equipment) with
  | none => .error ⟨.unknownEquipment, raw.equipment⟩
  | some equipment =>
    match (ofName? (Text.trim raw.action)).filter equipment.actions.contains with
    | none => .error ⟨.badAction, equipment.name⟩
    | some action =>
      match (raw.fields.normalize equipment action).params equipment action with
      | .error fault => .error ⟨fault, equipment.name⟩
      | .ok params =>
        .ok ⟨equipment, action, Text.trim raw.substation, Text.trim raw.companyCode, params⟩

end GridDispatch
