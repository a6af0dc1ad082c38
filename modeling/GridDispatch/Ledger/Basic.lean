import GridDispatch.Ledger.Row

/-!
# The ledger

Groups, envelopes, events and updates, each in the order in which they were written. Ids count from
one, and an id is given out once: the ledger keeps the last id of each kind, also after rows are
gone. The ids that rows were renumbered to are passed over. A write is one step: it gives the new
ledger, or an error and then no ledger. A `Guard` is a fault of the storage, under which certain
rows are refused.
-/

namespace GridDispatch

/-- Refuses rows of a table, or those with a given cell in a given column. -/
structure Guard where
  table : Table
  only : Option (String × Cell)
  message : String
  deriving DecidableEq, Repr

structure Ledger where
  groups : List Group
  envelopes : List EnvelopeRow
  events : List EventRow
  updates : List UpdateRow
  lastEnvelope : Int
  lastEvent : Int
  lastUpdate : Int
  /-- The newest guard first. -/
  guards : List Guard

namespace Ledger

def empty : Ledger := ⟨[], [], [], [], 0, 0, 0, []⟩

def hasEnvelope (l : Ledger) (id : Int) : Bool :=
  l.envelopes.any fun row => decide (row.id = id)

end Ledger

/-! ## Columns -/

/-- What a column of a table holds. The key column holds the ids of rows. -/
structure Column where
  name : String
  affinity : Affinity
  nullable : Bool
  isKey : Bool
  deriving DecidableEq, Repr

namespace Column

def key (name : String) : Column := ⟨name, .integer, false, true⟩

def number (name : String) : Column := ⟨name, .integer, false, false⟩

def number? (name : String) : Column := ⟨name, .integer, true, false⟩

def text (name : String) : Column := ⟨name, .text, false, false⟩

def text? (name : String) : Column := ⟨name, .text, true, false⟩

/-- Whether a column goes by a name. Case does not matter, and the key has names of its own. -/
def goesBy (column : Column) (name : String) : Bool :=
  let name := name.toLower
  column.name == name || (column.isKey && ["rowid", "oid", "_rowid_"].contains name)

end Column

namespace Table

def columns : Table → List Column
  | group => [.key "rowid", .text? "group_id", .text "requester_id",
      .number "creation_total_time", .number "created_at"]
  | solicitation => [.key "id", .text "equipment", .text "action", .text "substation_code",
      .text "company_code", .number? "amount", .text? "voltage", .number? "staggered",
      .text? "voltage_primary", .text? "voltage_secondary", .text "requester_id",
      .text? "group_id"]
  | event => [.key "event_id", .number "solicitation_id", .text? "actor", .text "status",
      .number "time_stamp", .text? "justification"]
  | update => [.key "stream_id", .number "solicitation_id", .text? "user_id", .text "type",
      .text "content"]

def column? (table : Table) (name : String) : Option Column :=
  table.columns.find? fun column => column.goesBy name

end Table

/-- The id of a row that is not stored yet. -/
def Ledger.unnumbered : Int := -1

/-- The cell in a column of a group that is not stored yet. -/
def Group.cell (g : Group) : String → Cell
  | "rowid" => .int Ledger.unnumbered
  | "group_id" => .text g.groupId
  | "requester_id" => .text g.requesterId
  | "creation_total_time" => .int g.creationTotalTime
  | "created_at" => .int g.createdAt
  | _ => .null

def EnvelopeRow.cell (row : EnvelopeRow) : String → Cell
  | "id" => .int row.id
  | "equipment" => .text row.equipment
  | "action" => .text row.action
  | "substation_code" => .text row.substationCode
  | "company_code" => .text row.companyCode
  | "amount" => row.amount
  | "voltage" => .ofText? row.voltage
  | "staggered" => row.staggered
  | "voltage_primary" => .ofText? row.voltagePrimary
  | "voltage_secondary" => .ofText? row.voltageSecondary
  | "requester_id" => .text row.requesterId
  | "group_id" => .ofText? row.groupId
  | _ => .null

def EventRow.cell (row : EventRow) : String → Cell
  | "event_id" => .int row.eventId
  | "solicitation_id" => .int row.solicitationId
  | "actor" => .ofText? row.actor
  | "status" => .text row.status
  | "time_stamp" => row.time
  | "justification" => .ofText? row.justification
  | _ => .null

/-- The text that a content is kept as. -/
def Content.written : Content → String
  | .json v => v.print
  | .text s => s

def UpdateRow.cell (row : UpdateRow) : String → Cell
  | "stream_id" => .int row.streamId
  | "solicitation_id" => .int row.solicitationId
  | "user_id" => .ofText? row.userId
  | "type" => .text row.kind
  | "content" => .text row.content.written
  | _ => .null

/-- Whether a column holds a given cell. For the key alone the given cell is coerced. -/
def Column.holds (column : Column) (cell : String → Cell) (c : Cell) : Bool :=
  (if column.isKey then c.coerce column.affinity else c).same (cell column.name)

namespace Guard

/-- Whether a guard refuses the row with these cells. -/
def refuses (g : Guard) (table : Table) (cell : String → Cell) : Bool :=
  decide (g.table = table) &&
    match g.only with
    | none => true
    | some (name, c) => (table.column? name).any fun column => column.holds cell c

/-- The name in a guard on a table that none of its columns goes by. -/
def unknown? (g : Guard) (table : Table) : Option String :=
  match g.only with
  | none => none
  | some (name, _) => if g.table = table ∧ table.column? name = none then some name else none

end Guard

namespace Ledger

/-- Passes a row by the guards; the newest that refuses it gives the error. While a guard asks for a
column that the table does not have, no row of the table passes. -/
def passGuards (l : Ledger) (table : Table) (cell : String → Cell) : Except StoreError Unit :=
  match l.guards.findSome? fun g => g.unknown? table with
  | some name => .error (.noColumn ("NEW." ++ name))
  | none =>
    match l.guards.find? fun g => g.refuses table cell with
    | some g => .error (.ofFailure g.message)
    | none => .ok ()

/-! ## Ids -/

/-- The id after the last one given out and after all that are in use. -/
def nextId (last : Int) (used : List Int) : Except StoreError Int :=
  let top := used.foldl max last
  if top < Text.Range.signed.hi then .ok (top + 1) else .error .idsUsedUp

/-! ## Single rows -/

def insertGroup (l : Ledger) (g : Group) : Except StoreError Ledger :=
  match l.passGuards .group g.cell with
  | .error e => .error e
  | .ok () =>
    if g.creationTotalTime < 0 then
      .error (.ofFailure "CHECK constraint failed: creation_total_time >= 0")
    else if l.groups.any fun g' => decide (g'.groupId = g.groupId) then
      .error (.notUniqueColumn .group "group_id")
    else .ok { l with groups := l.groups ++ [g] }

/-- Adds an envelope and gives its id. -/
def insertEnvelope (l : Ledger) (new : NewSolicitation) (requesterId : String)
    (groupId : Option String) : Except StoreError (Int × Ledger) := do
  let row := EnvelopeRow.of unnumbered new requesterId groupId
  l.passGuards .solicitation row.cell
  let id ← nextId l.lastEnvelope (l.envelopes.map EnvelopeRow.id)
  if groupId.all fun id => l.groups.any fun g => decide (g.groupId = id) then
    return (id, { l with envelopes := l.envelopes ++ [{ row with id }], lastEnvelope := id })
  else .error .referenceFailed

/-- Adds an event and gives its id. -/
def insertEvent (l : Ledger) (id : Int) (actor : Option String) (status : Status) (time : Int)
    (justification : Option String) : Except StoreError (Int × Ledger) := do
  let row := EventRow.of ⟨unnumbered, id, actor, status, time, justification⟩
  l.passGuards .event row.cell
  let eventId ← nextId l.lastEvent (l.events.map EventRow.eventId)
  if l.hasEnvelope id then
    return (eventId, { l with events := l.events ++ [{ row with eventId }], lastEvent := eventId })
  else .error .referenceFailed

/-- Adds an update and gives its id. -/
def record (l : Ledger) (id : Int) (userId : Option String) (kind : UpdateKind) (content : Json) :
    Except StoreError (Int × Ledger) := do
  let row := UpdateRow.of ⟨unnumbered, id, userId, kind, content⟩
  l.passGuards .update row.cell
  let streamId ← nextId l.lastUpdate (l.updates.map UpdateRow.streamId)
  if l.hasEnvelope id then
    return (streamId,
      { l with updates := l.updates ++ [{ row with streamId }], lastUpdate := streamId })
  else .error .referenceFailed

/-! ## Solicitations and their events -/

/-- Adds an envelope with its first event and gives its id. -/
def enter (l : Ledger) (new : NewSolicitation) (requesterId : String) (groupId : Option String)
    (status : Status) (time : Int) : Except StoreError (Int × Ledger) := do
  let (id, l) ← l.insertEnvelope new requesterId groupId
  let (_, l) ← l.insertEvent id (some requesterId) status time none
  return (id, l)

/-- Adds a solicitation that belongs to no group. -/
def create (l : Ledger) (new : NewSolicitation) (requesterId : String) (status : Status)
    (time : Int) : Except StoreError (Int × Ledger) :=
  l.enter new requesterId none status time

/-- Adds the solicitations of a group in order and gives their ids. -/
def enterAll (l : Ledger) (g : Group) (status : Status) (time : Int) :
    List NewSolicitation → Except StoreError (List Int × Ledger)
  | [] => .ok ([], l)
  | new :: news => do
    let (id, l) ← l.enter new g.requesterId (some g.groupId) status time
    let (ids, l) ← l.enterAll g status time news
    return (id :: ids, l)

/-- Adds a group with its solicitations, or nothing of it. -/
def createBatch (l : Ledger) (g : Group) (news : List NewSolicitation) (status : Status)
    (time : Int) : Except StoreError (List Int × Ledger) := do
  let l ← l.insertGroup g
  l.enterAll g status time news

/-- The events of a solicitation, the newest first. -/
def rowsOf (l : Ledger) (id : Int) : List EventRow :=
  (l.events.filter fun row => decide (row.solicitationId = id)).mergeSort EventRow.newer

/-- The newest event of a solicitation. -/
def head? (l : Ledger) (id : Int) : Option EventRow :=
  (l.rowsOf id).head?

/-- Adds an event whatever the head is. -/
def append (l : Ledger) (id : Int) (actor : Option String) (status : Status) (time : Int) :
    Except StoreError (Int × Ledger) :=
  if l.hasEnvelope id then l.insertEvent id actor status time none
  else .error (.noSolicitation id)

/-- Adds an event if the head is still the one that was seen. -/
def appendIfCurrent (l : Ledger) (id : Int) (seen : Marker) (actor : Option String)
    (status : Status) (time : Int) (justification : Option String) :
    Except StoreError (Int × Ledger) :=
  match l.head? id with
  | none => .error (.noSolicitation id)
  | some head =>
    if head.eventId = seen.headEventId then l.insertEvent id actor status time justification
    else .error (.staleHead id seen.headEventId head.eventId)

/-- Takes the events of a solicitation away; their ids are not given out again. -/
def deleteEvents (l : Ledger) (id : Int) : Ledger :=
  { l with events := l.events.filter fun row => decide (row.solicitationId ≠ id) }

end Ledger

end GridDispatch
