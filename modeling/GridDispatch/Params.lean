import GridDispatch.Equipment

/-!
# Parameters of a solicitation

What is asked of a piece of equipment depends on its kind. `Params` has one case for each family
of equipment, `Columns` is the flat row in which all of them are kept, and `Params.ofColumns?`
reads a row back with the equipment that it belongs to. Main statement: `ofColumns?_columns`.
-/

namespace GridDispatch

inductive Params
  | switched (amount : Int) (staggered : Bool) (voltage : Option Voltage)
  | transformer (amount : Int) (voltage : Voltage) (primary secondary : Option Voltage)
  | synchronous (amount : Option Int)
  deriving DecidableEq, Repr

/-- The parameters as a flat row. -/
structure Columns where
  amount : Option Int
  voltage : Option Voltage
  staggered : Option Bool
  voltagePrimary : Option Voltage
  voltageSecondary : Option Voltage
  deriving DecidableEq, Repr

namespace Params

def columns : Params → Columns
  | switched amount staggered voltage => ⟨some amount, voltage, some staggered, none, none⟩
  | transformer amount voltage primary secondary =>
    ⟨some amount, some voltage, none, primary, secondary⟩
  | synchronous amount => ⟨amount, none, none, none, none⟩

/-- The parameters in a row of the given equipment. A column that the equipment has no use for is
passed over; a column that it needs may not be empty. -/
def ofColumns? (equipment : Equipment) (c : Columns) : Option Params :=
  match equipment with
  | .capacitor | .reactor => do
    let amount ← c.amount
    let staggered ← c.staggered
    return switched amount staggered c.voltage
  | .transformer => do
    let amount ← c.amount
    let voltage ← c.voltage
    return transformer amount voltage c.voltagePrimary c.voltageSecondary
  | .synchronous => some (synchronous c.amount)

/-- The parameters belong to the family of the equipment. -/
def Fits : Params → Equipment → Prop
  | switched .., equipment => equipment = .capacitor ∨ equipment = .reactor
  | transformer .., equipment => equipment = .transformer
  | synchronous .., equipment => equipment = .synchronous

instance (p : Params) (e : Equipment) : Decidable (p.Fits e) := by
  cases p <;> unfold Fits <;> infer_instance

theorem ofColumns?_columns {p : Params} {e : Equipment} (h : p.Fits e) :
    ofColumns? e p.columns = some p := by
  cases p <;> simp only [Fits] at h
  · rcases h with rfl | rfl <;> rfl
  · subst h; rfl
  · subst h; rfl

theorem fits_of_ofColumns? {e : Equipment} {c : Columns} {p : Params}
    (h : ofColumns? e c = some p) : p.Fits e := by
  obtain ⟨amount, voltage, staggered, primary, secondary⟩ := c
  cases e <;> cases amount <;> cases staggered <;> cases voltage <;>
    simp_all [ofColumns?] <;> subst h <;> simp [Fits]

end Params

end GridDispatch
