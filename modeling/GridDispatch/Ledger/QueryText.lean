import GridDispatch.Listing
import GridDispatch.Text.Numeral

/-!
# The text of the list query

The storage is asked in its own language, and it shows what it was asked when a question holds too
many values. `ListQuery.text` is the question for a list, with a mark in the place of each value.
-/

namespace GridDispatch

namespace ListQuery

def columns : String :=
  "\n    s.id, s.equipment, s.action, s.substation_code, s.company_code,\n" ++
  "    s.amount, s.voltage, s.staggered, s.voltage_primary, s.voltage_secondary,\n" ++
  "    s.requester_id, s.group_id\n"

def headJoin : String :=
  "\n    JOIN solicitation_event h ON h.event_id = (\n" ++
  "        SELECT e.event_id FROM solicitation_event e\n" ++
  "        WHERE e.solicitation_id = s.id\n" ++
  "        ORDER BY e.time_stamp DESC, e.event_id DESC\n" ++
  "        LIMIT 1\n" ++
  "    )\n"

def source : String :=
  "\n            SELECT " ++ columns ++ "\n" ++
  "            FROM voltage_control_solicitation s\n" ++
  "            " ++ headJoin ++ "\n" ++
  "            JOIN (\n" ++
  "                SELECT solicitation_id, MIN(time_stamp) AS created_at\n" ++
  "                FROM solicitation_event\n" ++
  "                GROUP BY solicitation_id\n" ++
  "            ) c ON c.solicitation_id = s.id\n" ++
  "            WHERE 1 = 1\n" ++
  "            "

def tableCondition : String :=
  "\n                AND EXISTS (\n" ++
  "                    SELECT 1 FROM substation sub\n" ++
  "                    WHERE sub.code = s.substation_code\n" ++
  "                      AND sub.company_code = s.company_code\n" ++
  "                      AND sub.table_code = ?\n" ++
  "                )\n" ++
  "                "

/-- The marks for some values. -/
def marks (count : Nat) : String := ", ".intercalate (List.replicate count "?")

def conditions (filter : Filter) (page : Page) : String :=
  (if filter.companyCode.isSome then " AND s.company_code = ?" else "") ++
    (if filter.substations.isEmpty then ""
      else " AND s.substation_code IN (" ++ marks filter.substations.length ++ ")") ++
    (if filter.tableCode.isSome then tableCondition else "") ++
    (if filter.excludeExpired then " AND h.status <> 'LATE'" else "") ++
    (if page.fromId.isSome then " AND s.id >= ?" else "")

def anyOf (statuses : List Status) : String :=
  "h.status IN (" ++ ", ".intercalate (statuses.map fun s => "'" ++ s.name ++ "'") ++ ")"

def rankKey (view : SortView) : String :=
  let cases := view.buckets.zipIdx.map fun (b, i) =>
    " WHEN " ++ anyOf b.statuses ++ " THEN " ++ Text.write (i : Int)
  "CASE" ++ "".intercalate cases ++ " ELSE " ++ Text.write (view.buckets.length : Int) ++ " END ASC"

def changedKey (view : SortView) : String :=
  let cases := (view.buckets.filter Bucket.newestFirst).map fun b =>
    " WHEN " ++ anyOf b.statuses ++ " THEN h.time_stamp * -1"
  "CASE" ++ "".intercalate cases ++ " ELSE h.time_stamp END ASC"

def keys (view : SortView) : SortHint → List String
  | .status => [rankKey view, changedKey view]
  | .creationTime => ["c.created_at DESC"]
  | .substation => ["s.substation_code ASC"]

def text (filter : Filter) (page : Page) (view : SortView) (hints : List SortHint) : String :=
  source ++ conditions filter page ++ " ORDER BY " ++
    ", ".intercalate (hints.flatMap (keys view) ++ ["s.id ASC"]) ++ " LIMIT ?"

/-- The number of values, the limit among them. -/
def values (filter : Filter) (page : Page) : Nat :=
  filter.companyCode.toList.length + filter.substations.length + filter.tableCode.toList.length +
    page.fromId.toList.length + 1

/-- The place of the mark before which there are `skipped` others. -/
def markPlace (skipped : Nat) : List Char → Nat
  | [] => 0
  | c :: cs =>
    if c = '?' then
      match skipped with
      | 0 => 0
      | skipped + 1 => markPlace skipped cs + 1
    else markPlace skipped cs + 1

end ListQuery

/-- A question holds no more values than this. -/
def valueBound : Nat := 32766

/-- What the storage says to a question with too many values. -/
def ListQuery.tooManyValues (text : String) : String :=
  "too many SQL variables in " ++ text ++ " at offset " ++
    Text.write (markPlace valueBound text.toList : Int)

end GridDispatch
