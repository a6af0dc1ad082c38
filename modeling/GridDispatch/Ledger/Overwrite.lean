import GridDispatch.Ledger.Basic

/-!
# Overwriting stored fields

What somebody with access to the storage can do: put any cell into a column of a row, its id
included. Only the rules of the storage itself hold; a row may be unreadable afterwards.
-/

namespace GridDispatch

namespace Cell

def text? : Cell → Option String
  | text s => some s
  | _ => none

def int? : Cell → Option Int
  | int n => some n
  | _ => none

end Cell

/-- The row with a coerced cell put into a column. -/
def EnvelopeRow.put (row : EnvelopeRow) (column : String) (c : Cell) : EnvelopeRow :=
  match column with
  | "equipment" => { row with equipment := c.text?.getD "" }
  | "action" => { row with action := c.text?.getD "" }
  | "substation_code" => { row with substationCode := c.text?.getD "" }
  | "company_code" => { row with companyCode := c.text?.getD "" }
  | "amount" => { row with amount := c }
  | "voltage" => { row with voltage := c.text? }
  | "staggered" => { row with staggered := c }
  | "voltage_primary" => { row with voltagePrimary := c.text? }
  | "voltage_secondary" => { row with voltageSecondary := c.text? }
  | "requester_id" => { row with requesterId := c.text?.getD "" }
  | "group_id" => { row with groupId := c.text? }
  | _ => row

def EventRow.put (row : EventRow) (column : String) (c : Cell) : EventRow :=
  match column with
  | "solicitation_id" => { row with solicitationId := c.int?.getD 0 }
  | "actor" => { row with actor := c.text? }
  | "status" => { row with status := c.text?.getD "" }
  | "time_stamp" => { row with time := c }
  | "justification" => { row with justification := c.text? }
  | _ => row

def UpdateRow.put (row : UpdateRow) (column : String) (c : Cell) : UpdateRow :=
  match column with
  | "solicitation_id" => { row with solicitationId := c.int?.getD 0 }
  | "user_id" => { row with userId := c.text? }
  | "type" => { row with kind := c.text?.getD "" }
  | "content" => { row with content := .text (c.text?.getD "") }
  | _ => row

namespace Ledger

/-- The ids of the rows of a table; a group has none. -/
def ids (l : Ledger) : Table → List Int
  | .group => []
  | .solicitation => l.envelopes.map EnvelopeRow.id
  | .event => l.events.map EventRow.eventId
  | .update => l.updates.map UpdateRow.streamId

/-- Whether events or updates belong to the given solicitation. -/
def refersTo (l : Ledger) (id : Int) : Bool :=
  (l.events.any fun row => decide (row.solicitationId = id)) ||
    l.updates.any fun row => decide (row.solicitationId = id)

/-- A reference to a row that is not there. -/
def dangles (l : Ledger) (column : Column) (c : Cell) : Bool :=
  match column.name with
  | "solicitation_id" => !(c.int?.any l.hasEnvelope)
  | "group_id" => !(c.text?.all fun id => l.groups.any fun g => decide (g.groupId = id))
  | _ => false

/-- The rows of a table that have the given id, changed. -/
def changeRows (l : Ledger) (table : Table) (id : Int) (envelope : EnvelopeRow → EnvelopeRow)
    (event : EventRow → EventRow) (update : UpdateRow → UpdateRow) : Ledger :=
  match table with
  | .group => l
  | .solicitation =>
    { l with envelopes := l.envelopes.map fun row => if row.id = id then envelope row else row }
  | .event =>
    { l with events := l.events.map fun row => if row.eventId = id then event row else row }
  | .update =>
    { l with updates := l.updates.map fun row => if row.streamId = id then update row else row }

/-- Gives a row another id. Nothing may belong to a solicitation that loses its own. -/
def renumber (l : Ledger) (table : Table) (id : Int) (column : Column) (c : Cell) :
    Except StoreError Ledger :=
  match c with
  | .int n =>
    if n = id then .ok l
    else if (l.ids table).contains n then .error (.notUniqueColumn table column.name)
    else if table = .solicitation ∧ l.refersTo id then .error .referenceFailed
    else .ok (l.changeRows table id ({ · with id := n }) ({ · with eventId := n })
      ({ · with streamId := n }))
  | _ => .error .keyMismatch

/-- Puts a coerced cell into a column other than the key. -/
def replace (l : Ledger) (table : Table) (id : Int) (column : Column) (c : Cell) :
    Except StoreError Ledger :=
  if c = .null ∧ !column.nullable then .error (.emptyColumn table column.name)
  else if l.dangles column c then .error .referenceFailed
  else .ok (l.changeRows table id (·.put column.name c) (·.put column.name c)
    (·.put column.name c))

/-- Puts a cell into a column of the row with the given id; gives the number of rows changed. -/
def overwrite (l : Ledger) (table : Table) (id : Int) (name : String) (c : Cell) :
    Except StoreError (Nat × Ledger) :=
  match table.column? name with
  | none => .error (.noColumn name)
  | some column =>
    let c := c.coerce column.affinity
    if !(l.ids table).contains id then .ok (0, l)
    else
      (if column.isKey then l.renumber table id column c else l.replace table id column c).map
        fun l => (1, l)

/-- Lets a guard refuse rows from now on. -/
def guard (l : Ledger) (g : Guard) : Ledger := { l with guards := g :: l.guards }

def unguarded (l : Ledger) : Ledger := { l with guards := [] }

/-- The number of events of a solicitation. -/
def eventCount (l : Ledger) (id : Int) : Nat :=
  l.events.countP fun row => decide (row.solicitationId = id)

end Ledger

end GridDispatch
