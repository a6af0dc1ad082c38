import GridDispatch.Equipment
import GridDispatch.Json.Parser

/-!
# Errors of the ledger

`StoreError` says why the ledger refuses a write or cannot answer. `Damage` says what is wrong with
a stored record that cannot be read. Messages are those that users of the store see.
-/

namespace GridDispatch

inductive Table
  | group
  | solicitation
  | event
  | update
  deriving DecidableEq, Repr

def Table.name : Table → String
  | group => "solicitation_group"
  | solicitation => "voltage_control_solicitation"
  | event => "solicitation_event"
  | update => "solicitation_updates"

/-- What is wrong with a record. -/
inductive Damage
  | unknownEquipment (text : String)
  | unknownAction (text : String)
  | unknownVoltage (text : String)
  | columnsDisagree (equipment : Equipment)
  | noEvents
  | unknownStatus (text : String)
  | unknownKind (text : String)
  | unreadable (fault : Json.ParseFault)
  | described (text : String)
  deriving DecidableEq, Repr

def Damage.message : Damage → String
  | unknownEquipment text => "未知设备类型: " ++ text
  | unknownAction text => "未知操作: " ++ text
  | unknownVoltage text => "未知电压等级: " ++ text
  | columnsDisagree equipment => "参数列与设备类型不一致: " ++ equipment.name
  | noEvents => "申请没有任何事件"
  | unknownStatus text => "未知状态: " ++ text
  | unknownKind text => "未知类型: " ++ text
  | unreadable fault => fault.message
  | described text => text

inductive StoreError
  | staleHead (id expected actual : Int)
  | notFound (entity id : String)
  | lockFailed (text : String)
  | queryFailed (text : String)
  | notUnique (text : String)
  | danglingReference (text : String)
  | corrupt (table id : String) (damage : Damage)
  deriving DecidableEq, Repr

namespace StoreError

def message : StoreError → String
  | staleHead id expected actual =>
    "乐观锁冲突: solicitation_id=" ++ Text.write id ++ ", expected_head=" ++ Text.write expected ++
      ", actual_head=" ++ Text.write actual
  | notFound entity id => "记录未找到: " ++ entity ++ " with id=" ++ id
  | lockFailed text => "数据库锁获取失败: " ++ text
  | queryFailed text => "数据库查询失败: " ++ text
  | notUnique text => "唯一约束违反: " ++ text
  | danglingReference text => "外键约束违反: " ++ text
  | corrupt table id damage =>
    "损坏的记录 (table=" ++ table ++ ", id=" ++ id ++ "): " ++ damage.message

/-- Whether the characters of a text occur in another, next to each other. -/
def mentions (needle : List Char) : List Char → Bool
  | [] => needle.isEmpty
  | c :: cs => needle.isPrefixOf (c :: cs) || mentions needle cs

/-- The error for a failure that the storage reports as a text. -/
def ofFailure (text : String) : StoreError :=
  if mentions "UNIQUE".toList text.toList then notUnique text
  else if mentions "FOREIGN KEY".toList text.toList then danglingReference text
  else queryFailed text

/-- A lookup that found no row. -/
def noRows : StoreError := notFound "Unknown" "Unknown"

def noSolicitation (id : Int) : StoreError := notFound "Solicitation" (Text.write id)

def corruptRow (table : Table) (id : Int) (damage : Damage) : StoreError :=
  corrupt table.name (Text.write id) damage

def referenceFailed : StoreError := danglingReference "FOREIGN KEY constraint failed"

/-- A column that should hold a whole number holds something else. -/
def otherKind (kind : String) (index : Int) (name : String) : StoreError :=
  queryFailed ("Invalid column type " ++ kind ++ " at index: " ++ Text.write index ++
    ", name: " ++ name)

def notUniqueColumn (table : Table) (column : String) : StoreError :=
  notUnique ("UNIQUE constraint failed: " ++ table.name ++ "." ++ column)

/-- A key that is no whole number. -/
def keyMismatch : StoreError := queryFailed "datatype mismatch"

/-- All ids are used up. -/
def idsUsedUp : StoreError := queryFailed "database or disk is full"

/-- A column that the table does not have. -/
def noColumn (name : String) : StoreError := ofFailure ("no such column: " ++ name)

/-- A list cannot be sorted by so many keys. -/
def tooManyKeys : StoreError := queryFailed "too many terms in ORDER BY clause"

def emptyColumn (table : Table) (column : String) : StoreError :=
  queryFailed ("NOT NULL constraint failed: " ++ table.name ++ "." ++ column)

end StoreError

end GridDispatch
