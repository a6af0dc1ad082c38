import GridDispatch.Json.Reread
import GridDispatch.Ledger.Cell
import GridDispatch.Ledger.Error
import GridDispatch.Solicitation
import GridDispatch.Update

/-!
# Stored rows

Envelopes, events and updates as they are kept: names as texts, numbers as cells, so that a row can
hold what the program would not write. `read` gives a row back as the value that it was written
from, or says what is wrong with it. Main statements: `EnvelopeRow.read_of`, `EventRow.read_of`,
`UpdateRow.read_of`.
-/

namespace GridDispatch

structure EnvelopeRow where
  id : Int
  equipment : String
  action : String
  substationCode : String
  companyCode : String
  amount : Cell
  voltage : Option String
  staggered : Cell
  voltagePrimary : Option String
  voltageSecondary : Option String
  requesterId : String
  groupId : Option String
  deriving DecidableEq, Repr

structure EventRow where
  eventId : Int
  solicitationId : Int
  actor : Option String
  status : String
  time : Cell
  justification : Option String
  deriving DecidableEq, Repr

/-- The content of an update: a value that was printed, or a text that may be no value at all. -/
inductive Content
  | json (v : Json)
  | text (s : String)

/-- The value that a content is read as. One that nests too deep is refused where its text is. -/
def Content.read : Content → Except Json.ParseFault Json
  | .json v => if v.depth ≤ Json.depthBound then .ok v.reread else Json.parse v.print
  | .text s => Json.parse s

structure UpdateRow where
  streamId : Int
  solicitationId : Int
  userId : Option String
  kind : String
  content : Content

namespace EnvelopeRow

/-- The row of a new solicitation. -/
def of (id : Int) (new : NewSolicitation) (requesterId : String) (groupId : Option String) :
    EnvelopeRow where
  id
  equipment := new.equipment.name
  action := new.action.name
  substationCode := new.substationCode
  companyCode := new.companyCode
  amount := .ofInt? new.params.columns.amount
  voltage := new.params.columns.voltage.map Voltage.name
  staggered := .ofFlag? new.params.columns.staggered
  voltagePrimary := new.params.columns.voltagePrimary.map Voltage.name
  voltageSecondary := new.params.columns.voltageSecondary.map Voltage.name
  requesterId
  groupId

/-- Fetching a row fails if a column of whole numbers holds a text or a double. -/
def check (row : EnvelopeRow) : Except StoreError Unit :=
  match row.amount, row.staggered with
  | .text _, _ | .real _, _ => .error (.otherKind row.amount.kind 5 "amount")
  | _, .text _ | _, .real _ => .error (.otherKind row.staggered.kind 7 "staggered")
  | _, _ => .ok ()

def amount? (row : EnvelopeRow) : Option Int :=
  match row.amount with
  | .int n => some n
  | _ => none

/-- Every number but zero is a raised flag. -/
def staggered? (row : EnvelopeRow) : Option Bool :=
  match row.staggered with
  | .int n => some (n != 0)
  | _ => none

def corrupt {α : Type} (row : EnvelopeRow) (damage : Damage) : Except StoreError α :=
  .error (.corruptRow .solicitation row.id damage)

def readVoltage (row : EnvelopeRow) : Option String → Except StoreError (Option Voltage)
  | none => .ok none
  | some s =>
    match ofName? s with
    | some level => .ok (some level)
    | none => row.corrupt (.unknownVoltage s)

/-- Reads a fetched row. -/
def read (row : EnvelopeRow) : Except StoreError Solicitation :=
  match ofName? row.equipment, ofName? row.action with
  | none, _ => row.corrupt (.unknownEquipment row.equipment)
  | some _, none => row.corrupt (.unknownAction row.action)
  | some equipment, some action => do
    let voltage ← row.readVoltage row.voltage
    let primary ← row.readVoltage row.voltagePrimary
    let secondary ← row.readVoltage row.voltageSecondary
    match Params.ofColumns? equipment ⟨row.amount?, voltage, row.staggered?, primary, secondary⟩ with
    | none => row.corrupt (.columnsDisagree equipment)
    | some params =>
      return ⟨row.id, equipment, action, row.substationCode, row.companyCode, params,
        row.requesterId, row.groupId⟩

end EnvelopeRow

namespace EventRow

def of (e : Event) : EventRow :=
  ⟨e.eventId, e.solicitationId, e.actor, e.status.name, .int e.time, e.justification⟩

/-- `a` is at least as new as `b`. -/
def newer (a b : EventRow) : Bool :=
  match a.time.order b.time with
  | .gt => true
  | .eq => decide (b.eventId ≤ a.eventId)
  | .lt => false

def check (row : EventRow) : Except StoreError Unit :=
  match row.time with
  | .int _ => .ok ()
  | c => .error (.otherKind c.kind 4 "time_stamp")

/-- Reads a fetched row. -/
def read (row : EventRow) : Except StoreError Event :=
  match row.time, ofName? row.status with
  | .int time, some status =>
    .ok ⟨row.eventId, row.solicitationId, row.actor, status, time, row.justification⟩
  | .int _, none => .error (.corruptRow .event row.eventId (.unknownStatus row.status))
  | c, _ => .error (.otherKind c.kind 4 "time_stamp")

end EventRow

namespace UpdateRow

def of (u : Update) : UpdateRow :=
  ⟨u.streamId, u.solicitationId, u.userId, u.kind.name, .json u.content⟩

/-- Reads a fetched row. -/
def read (row : UpdateRow) : Except StoreError Update :=
  match ofName? row.kind with
  | none => .error (.corruptRow .update row.streamId (.unknownKind row.kind))
  | some kind =>
    match row.content.read with
    | .ok v => .ok ⟨row.streamId, row.solicitationId, row.userId, kind, v⟩
    | .error fault => .error (.corruptRow .update row.streamId (.unreadable fault))

end UpdateRow

theorem EventRow.check_of (e : Event) : (of e).check = .ok () := rfl

theorem EventRow.read_of (e : Event) : (of e).read = .ok e := by
  have h : ofName? e.status.name = some e.status := Named.ofName?_name e.status
  simp [read, of, h]

/-- Rows of events are ordered as the events are. -/
theorem EventRow.newer_of (a b : Event) : (of a).newer (of b) = a.newer b := by
  simp only [newer, of, Cell.order, Event.newer]
  rcases Int.lt_trichotomy a.time b.time with h | h | h
  · rw [Int.compare_eq_lt.2 h]; simp; omega
  · rw [Int.compare_eq_eq.2 h]
    simp only [h, Int.lt_irrefl, decide_false, Bool.false_or, decide_true, Bool.true_and]
    exact decide_eq_decide.2 Iff.rfl
  · rw [Int.compare_eq_gt.2 h]; simp [h]

theorem UpdateRow.read_of_content {u : Update} {v : Json}
    (h : Content.read (.json u.content) = .ok v) : (of u).read = .ok { u with content := v } := by
  have hkind : ofName? u.kind.name = some u.kind := Named.ofName?_name u.kind
  simp only [read, of, hkind, h]

/-- A row gives back the update that it was written from; doubles were printed in between. -/
theorem UpdateRow.read_of {u : Update} (h : u.content.depth ≤ Json.depthBound) :
    (of u).read = .ok { u with content := u.content.reread } :=
  read_of_content (if_pos h)

theorem UpdateRow.read_of_plain {u : Update} (h : u.content.Plain) : (of u).read = .ok u := by
  rw [read_of h.depth_le, Json.reread_of_noReal h.noReal]

/-- A row gives nothing back exactly if its content nests too deep and is refused for that. -/
theorem UpdateRow.read_of_eq_error_iff {u : Update} {e : StoreError} : (of u).read = .error e ↔
    Json.depthBound < u.content.depth ∧ ∃ fault, Json.parse u.content.print = .error fault ∧
      e = .corruptRow .update u.streamId (.unreadable fault) := by
  by_cases hdepth : u.content.depth ≤ Json.depthBound
  · rw [read_of hdepth]
    exact iff_of_false nofun fun h => Nat.not_lt.2 hdepth h.1
  · have hread : Content.read (.json u.content) = Json.parse u.content.print := if_neg hdepth
    have hkind : ofName? u.kind.name = some u.kind := Named.ofName?_name u.kind
    rw [and_iff_right (Nat.not_le.1 hdepth)]
    cases hparse : Json.parse u.content.print with
    | ok v =>
      rw [read_of_content (hread.trans hparse)]
      exact iff_of_false nofun fun ⟨_, h, _⟩ => nomatch h
    | error fault =>
      simp only [read, of, hkind, hread.trans hparse, Except.error.injEq, exists_eq_left', eq_comm]

theorem EnvelopeRow.readVoltage_name (row : EnvelopeRow) (v : Option Voltage) :
    row.readVoltage (v.map Voltage.name) = .ok v := by
  cases v with
  | none => rfl
  | some level =>
    have h : ofName? level.name = some level := Named.ofName?_name level
    simp [readVoltage, h]

theorem EnvelopeRow.check_of (id : Int) (new : NewSolicitation) (requesterId : String)
    (groupId : Option String) : (of id new requesterId groupId).check = .ok () := by
  obtain ⟨equipment, action, substation, company, params⟩ := new
  cases params with
  | switched amount staggered voltage => cases staggered <;> rfl
  | transformer => rfl
  | synchronous amount => cases amount <;> rfl

/-- The row has known names in it, and `c` in its columns of parameters. -/
structure EnvelopeRow.Holds (row : EnvelopeRow) (equipment : Equipment) (action : Action)
    (c : Columns) : Prop where
  equipment : row.equipment = equipment.name
  action : row.action = action.name
  amount : row.amount? = c.amount
  voltage : row.voltage = c.voltage.map Voltage.name
  staggered : row.staggered? = c.staggered
  voltagePrimary : row.voltagePrimary = c.voltagePrimary.map Voltage.name
  voltageSecondary : row.voltageSecondary = c.voltageSecondary.map Voltage.name

theorem EnvelopeRow.read_of_holds {row : EnvelopeRow} {equipment : Equipment} {action : Action}
    {c : Columns} (h : row.Holds equipment action c) :
    row.read = match Params.ofColumns? equipment c with
      | none => row.corrupt (.columnsDisagree equipment)
      | some params => .ok ⟨row.id, equipment, action, row.substationCode, row.companyCode, params,
          row.requesterId, row.groupId⟩ := by
  have he : ofName? row.equipment = some equipment := Named.ofName?_eq_some_iff.2 h.equipment.symm
  have ha : ofName? row.action = some action := Named.ofName?_eq_some_iff.2 h.action.symm
  rw [read, he, ha]
  simp only [h.amount, h.voltage, h.staggered, h.voltagePrimary, h.voltageSecondary,
    readVoltage_name]
  rfl

theorem EnvelopeRow.holds_of (id : Int) (new : NewSolicitation) (requesterId : String)
    (groupId : Option String) :
    (of id new requesterId groupId).Holds new.equipment new.action new.params.columns := by
  refine ⟨rfl, rfl, ?_, rfl, ?_, rfl, rfl⟩
  all_goals
    obtain ⟨equipment, action, substation, company, params⟩ := new
    cases params with
    | switched amount staggered voltage => cases staggered <;> rfl
    | transformer => rfl
    | synchronous amount => cases amount <;> rfl

/-- A row gives back the solicitation that it was written from. -/
theorem EnvelopeRow.read_of {id : Int} {new : NewSolicitation} {requesterId : String}
    {groupId : Option String} (h : new.params.Fits new.equipment) :
    (of id new requesterId groupId).read = .ok ⟨id, new.equipment, new.action,
      new.substationCode, new.companyCode, new.params, requesterId, groupId⟩ := by
  rw [read_of_holds (holds_of id new requesterId groupId), Params.ofColumns?_columns h]
  rfl

end GridDispatch
