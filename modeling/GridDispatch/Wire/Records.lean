import GridDispatch.Bus
import GridDispatch.Listing
import GridDispatch.Request
import GridDispatch.Settings
import GridDispatch.Solicitation
import GridDispatch.Wire.Basic
import GridDispatch.Workflow.Browse
import GridDispatch.Workflow.Change
import GridDispatch.Workflow.Submit

/-!
# Wire shapes of the library's types

Each record is written with all its fields, absent values as null. Reading is laxer where it says
so: fields that are marked open may be missing, and some fields of a raw request have second names.
-/

namespace GridDispatch

/-! ## Finite kinds -/

instance : Wire Equipment := .ofNamed Equipment
instance : Wire Action := .ofNamed Action
instance : Wire Voltage := .ofNamed Voltage
instance : Wire Company := .ofNamed Company
instance : Wire Status := .ofNamed Status
instance : Wire SortHint := .ofNamed SortHint
instance : Wire SortView := .ofNamed SortView
instance : Wire UpdateKind := .ofNamed UpdateKind
instance : Wire Conflict := .ofNamed Conflict

/-! ## Solicitations -/

namespace Params

/-- The word that tells which case the parameters are. -/
def kind : Params → String
  | switched .. => "switched"
  | transformer .. => "transformer"
  | synchronous .. => "synchronous"

def members : Params → List (String × Json)
  | switched amount staggered voltage =>
    [("amount", encode amount), ("staggered", encode staggered), ("voltage", encode voltage)]
  | transformer amount voltage primary secondary =>
    [("amount", encode amount), ("voltage", encode voltage), ("voltage_primary", encode primary),
      ("voltage_secondary", encode secondary)]
  | synchronous amount => [("amount", encode amount)]

/-- The fields of a case. -/
def slots : String → List Slot
  | "switched" => Slot.fixed ["amount", "staggered", "voltage"]
  | "transformer" => Slot.fixed ["amount", "voltage", "voltage_primary", "voltage_secondary"]
  | _ => Slot.fixed ["amount"]

/-- The parameters of a case, from its fields. -/
def ofRecord? (kind : String) (r : Record) : Option Params :=
  match kind with
  | "switched" => do
    return switched (← r.required "amount") (← r.required "staggered") (← r.optional "voltage")
  | "transformer" => do
    return transformer (← r.required "amount") (← r.required "voltage")
      (← r.optional "voltage_primary") (← r.optional "voltage_secondary")
  | "synchronous" => do
    return synchronous (← r.optional "amount")
  | _ => none

end Params

/-- Parameters may also be an array that begins with their kind. -/
instance : Wire Params where
  encode p := .obj (("kind", .str p.kind) :: p.members)
  decode?
    | .obj members => do
      let kind ← (members.lookup "kind").bind Json.text?
      Params.ofRecord? kind (Record.relaxed members)
    | .arr (.str kind :: items) => do
      let r ← place (Params.slots kind) items
      Params.ofRecord? kind r.relaxed
    | _ => none

/-- The word for a kind of parameters that may be given by its number. -/
def Params.kindOf : Json → Json
  | .int 0 => .str "switched"
  | .int 1 => .str "transformer"
  | .int 2 => .str "synchronous"
  | v => v

/-- Parameters with their kind as a word. -/
def Params.withKind : Json → Json
  | .obj members =>
    .obj (members.map fun m => if m.1 = "kind" then (m.1, kindOf m.2) else m)
  | .arr (kind :: items) => .arr (kindOf kind :: items)
  | v => v

instance : Wire NewSolicitation where
  encode n := .obj [("equipment", encode n.equipment), ("action", encode n.action),
    ("substation_code", encode n.substationCode), ("company_code", encode n.companyCode),
    ("params", encode n.params)]
  decode? j := do
    let r ← gather (Slot.fixed ["equipment", "action", "substation_code", "company_code", "params"]) j
    return ⟨← r.required "equipment", ← r.required "action", ← r.required "substation_code",
      ← r.required "company_code", ← r.required "params"⟩

namespace Solicitation

def members (s : Solicitation) : List (String × Json) :=
  [("id", encode s.id), ("equipment", encode s.equipment), ("action", encode s.action),
    ("substation_code", encode s.substationCode), ("company_code", encode s.companyCode),
    ("params", encode s.params), ("requester_id", encode s.requesterId),
    ("group_id", encode s.groupId)]

def ofRecord? (r : Record) : Option Solicitation := do
  return ⟨← r.required "id", ← r.required "equipment", ← r.required "action",
    ← r.required "substation_code", ← r.required "company_code", ← r.required "params",
    ← r.required "requester_id", ← r.optional "group_id"⟩

end Solicitation

instance : Wire Solicitation where
  encode s := .obj s.members
  decode? j := do
    let r ← gather (Slot.fixed ["id", "equipment", "action", "substation_code", "company_code",
      "params", "requester_id", "group_id"]) j
    Solicitation.ofRecord? r

instance : Wire Event where
  encode e := .obj [("event_id", encode e.eventId), ("solicitation_id", encode e.solicitationId),
    ("actor", encode e.actor), ("status", encode e.status), ("time_stamp", encode e.time),
    ("justification", encode e.justification)]
  decode? j := do
    let r ← gather (Slot.fixed ["event_id", "solicitation_id", "actor", "status", "time_stamp",
      "justification"]) j
    return ⟨← r.required "event_id", ← r.required "solicitation_id", ← r.optional "actor",
      ← r.required "status", ← r.required "time_stamp", ← r.optional "justification"⟩

instance : Wire Marker where
  encode m := .obj [("head_event_id", encode m.headEventId), ("status", encode m.status)]
  decode? j := do
    let r ← gather (Slot.fixed ["head_event_id", "status"]) j
    return ⟨← r.required "head_event_id", ← r.required "status"⟩

instance : Wire State where
  encode s := .obj [("status", encode s.status), ("created_at", encode s.createdAt),
    ("updated_at", encode s.updatedAt), ("head_event_id", encode s.headEventId),
    ("events", encode s.events)]
  decode? j := do
    let r ← gather (Slot.fixed ["status", "created_at", "updated_at", "head_event_id", "events"]) j
    return ⟨← r.required "status", ← r.required "created_at", ← r.required "updated_at",
      ← r.required "head_event_id", ← r.required "events"⟩

/-- A view has the fields of its solicitation beside its own, and so is never an array. These fields
are read more laxly than in a solicitation alone: the kind of parameters may be a number. -/
instance : Wire View where
  encode v := .obj (v.solicitation.members ++ [("status", encode v.status),
    ("created_at", encode v.createdAt), ("updated_at", encode v.updatedAt),
    ("events", encode v.events)])
  decode?
    | .obj members => do
      let r : Record := members
      let solicitation ← Solicitation.ofRecord?
        (Record.relaxed (members.map fun m =>
          if m.1 = "params" then (m.1, Params.withKind m.2) else m))
      return ⟨solicitation, ← r.required "status", ← r.required "created_at",
        ← r.required "updated_at", ← r.required "events"⟩
    | _ => none

instance : Wire Group where
  encode g := .obj [("group_id", encode g.groupId), ("requester_id", encode g.requesterId),
    ("creation_total_time", encode g.creationTotalTime), ("created_at", encode g.createdAt)]
  decode? j := do
    let r ← gather (Slot.fixed ["group_id", "requester_id", "creation_total_time", "created_at"]) j
    return ⟨← r.required "group_id", ← r.required "requester_id",
      ← r.required "creation_total_time", ← r.required "created_at"⟩

/-! ## Lists -/

instance : Wire Filter where
  encode f := .obj [("company_code", encode f.companyCode), ("substations", encode f.substations),
    ("table_code", encode f.tableCode), ("exclude_expired", encode f.excludeExpired)]
  decode? j := do
    let r ← gather (Slot.fixed ["company_code", "substations", "table_code", "exclude_expired"]) j
    return ⟨← r.optional "company_code", ← r.required "substations", ← r.optional "table_code",
      ← r.required "exclude_expired"⟩

instance : Wire Page where
  encode p := .obj [("from_id", encode p.fromId), ("limit", encode p.limit)]
  decode? j := do
    let r ← gather (Slot.fixed ["from_id", "limit"]) j
    return ⟨← r.optional "from_id", ← r.required "limit"⟩

instance : Wire ListRequest where
  encode r := .obj [("company_code", encode r.companyCode), ("substations", encode r.substations),
    ("table_code", encode r.tableCode), ("exclude_expired", encode r.excludeExpired),
    ("from_id", encode r.fromId), ("limit", encode r.limit), ("sort", encode r.sort)]
  decode? j := do
    let r ← gather (["company_code", "substations", "table_code", "exclude_expired", "from_id",
      "limit", "sort"].map Slot.open?) j
    return ⟨← r.optional "company_code", ← r.orElse "substations" [], ← r.optional "table_code",
      ← r.orElse "exclude_expired" false, ← r.optional "from_id", ← r.optional "limit",
      ← r.orElse "sort" []⟩

instance : Wire ListResponse where
  encode l := .obj [("solicitations", encode l.solicitations), ("count", encode l.count)]
  decode? j := do
    let r ← gather (Slot.fixed ["solicitations", "count"]) j
    return ⟨← r.required "solicitations", ← r.required "count"⟩

/-! ## Requests and receipts -/

/-- All fields have defaults: blank texts, and null for the parameters. -/
instance : Wire RawSolicitation where
  encode raw := .obj [("equipment", encode raw.equipment), ("action", encode raw.action),
    ("substation", encode raw.substation), ("company_code", encode raw.companyCode),
    ("amount", raw.fields.amount), ("voltage", raw.fields.voltage),
    ("staggered", raw.fields.staggered), ("voltage_primary", raw.fields.voltagePrimary),
    ("voltage_secondary", raw.fields.voltageSecondary)]
  decode? j := do
    let r ← gather [.open? "equipment", .open? "action",
      ⟨"substation", some "substation_code", true⟩, .open? "company_code", .open? "amount",
      .open? "voltage", .open? "staggered", ⟨"voltage_primary", some "at", true⟩,
      ⟨"voltage_secondary", some "bt", true⟩] j
    return ⟨← r.orElse "equipment" "", ← r.orElse "action" "", ← r.orElse "substation" "",
      ← r.orElse "company_code" "",
      ⟨← r.orElse "amount" .null, ← r.orElse "voltage" .null, ← r.orElse "staggered" .null,
        ← r.orElse "voltage_primary" .null, ← r.orElse "voltage_secondary" .null⟩⟩

instance : Wire Batch where
  encode b := .obj [("creation_total_time", encode b.creationTotalTime),
    ("solicitations", encode b.solicitations)]
  decode? j := do
    let r ← gather [.open? "creation_total_time", .open? "solicitations"] j
    return ⟨← r.orElse "creation_total_time" 0, ← r.orElse "solicitations" []⟩

instance : Wire SubmitReceipt where
  encode s := .obj [("group_id", encode s.groupId), ("ids", encode s.ids),
    ("message", encode s.message)]
  decode? j := do
    let r ← gather (Slot.fixed ["group_id", "ids", "message"]) j
    return ⟨← r.required "group_id", ← r.required "ids", ← r.required "message"⟩

instance : Wire ChangeReceipt where
  encode c := .obj [("solicitation_id", encode c.solicitationId), ("status", encode c.status),
    ("stream_token", encode c.streamToken)]
  decode? j := do
    let r ← gather (Slot.fixed ["solicitation_id", "status", "stream_token"]) j
    return ⟨← r.required "solicitation_id", ← r.required "status", ← r.optional "stream_token"⟩

/-! ## Updates and settings -/

instance : Wire Update where
  encode u := .obj [("stream_id", encode u.streamId),
    ("solicitation_id", encode u.solicitationId), ("user_id", encode u.userId),
    ("kind", encode u.kind), ("content", u.content)]
  decode? j := do
    let r ← gather (Slot.fixed ["stream_id", "solicitation_id", "user_id", "kind", "content"]) j
    return ⟨← r.required "stream_id", ← r.required "solicitation_id", ← r.optional "user_id",
      ← r.required "kind", ← r.required "content"⟩

instance : Wire Notification where
  encode n := .obj [("stream_key", encode n.streamKey), ("token", encode n.token),
    ("recipients", encode n.recipients)]
  decode? j := do
    let r ← gather (Slot.fixed ["stream_key", "token", "recipients"]) j
    return ⟨← r.required "stream_key", ← r.required "token", ← r.optional "recipients"⟩

instance : Wire Settings where
  encode c := .obj [("acceptance_window_secs", encode c.acceptanceWindow),
    ("late_after_secs", encode c.lateAfter), ("sweep_interval_secs", encode c.sweepInterval),
    ("list_default_limit", encode c.listDefaultLimit), ("list_max_limit", encode c.listMaxLimit),
    ("log_level", encode c.logLevel), ("log_json", encode c.logJson)]
  decode? j := do
    let r ← gather (Slot.fixed ["acceptance_window_secs", "late_after_secs", "sweep_interval_secs",
      "list_default_limit", "list_max_limit", "log_level", "log_json"]) j
    return ⟨← r.required "acceptance_window_secs", ← r.required "late_after_secs",
      ← r.required "sweep_interval_secs", ← r.required "list_default_limit",
      ← r.required "list_max_limit", ← r.required "log_level", ← r.required "log_json"⟩

end GridDispatch
