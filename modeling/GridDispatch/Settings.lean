import GridDispatch.Text.Blank
import GridDispatch.Text.Numeral

/-!
# Settings

Settings are kept as pairs of texts, the last text written for a key counting. `Settings.load` gives
each setting its type: a key that was never written has its default, a text that does not have the
type is an error, and so are settings that do not go together. `Settings.texts` is the way back.
-/

namespace GridDispatch

structure Settings where
  acceptanceWindow : Int
  lateAfter : Int
  sweepInterval : Nat
  listDefaultLimit : Nat
  listMaxLimit : Nat
  logLevel : String
  logJson : Bool
  deriving DecidableEq, Repr

def Settings.default : Settings := ⟨300, 300, 60, 50, 100, "info", false⟩

inductive SettingKey
  | acceptanceWindow
  | lateAfter
  | sweepInterval
  | listDefaultLimit
  | listMaxLimit
  | logLevel
  | logJson
  deriving DecidableEq, Repr

def SettingKey.name : SettingKey → String
  | acceptanceWindow => "acceptance_window_secs"
  | lateAfter => "late_after_secs"
  | sweepInterval => "sweep_interval_secs"
  | listDefaultLimit => "list_default_limit"
  | listMaxLimit => "list_max_limit"
  | logLevel => "log_level"
  | logJson => "log_json"

/-! ## Pairs of texts -/

/-- Pairs of a key and its text, one pair a key. -/
structure TextStore where
  pairs : List (String × String)
  deriving DecidableEq, Repr

namespace TextStore

def empty : TextStore := ⟨[]⟩

def get? (s : TextStore) (key : String) : Option String :=
  (s.pairs.find? fun p => p.1 == key).map fun p => p.2

def set (s : TextStore) (key text : String) : TextStore :=
  ⟨(s.pairs.filter fun p => p.1 != key) ++ [(key, text)]⟩

end TextStore

/-! ## Loading -/

/-- Why a text does not have the type of its setting. -/
inductive TextFault
  | numeral (fault : Text.NumeralFault)
  | notFlag
  deriving DecidableEq, Repr

def TextFault.message : TextFault → String
  | numeral fault => fault.message
  | notFlag => "provided string was not `true` or `false`"

inductive SettingsError
  | unreadable (key : SettingKey) (text : String) (fault : TextFault)
  | negativeTime (acceptanceWindow lateAfter : Int)
  | badLimits (listDefaultLimit listMaxLimit : Nat)
  deriving DecidableEq, Repr

def SettingsError.message : SettingsError → String
  | unreadable key text fault =>
    "配置项 " ++ key.name ++ " 解析失败 (value=" ++ text ++ "): " ++ fault.message
  | negativeTime acceptanceWindow lateAfter =>
    "时限配置不能为负: acceptance_window_secs=" ++ Text.write acceptanceWindow ++
      ", late_after_secs=" ++ Text.write lateAfter
  | badLimits listDefaultLimit listMaxLimit =>
    "分页配置无效: list_default_limit=" ++ Text.write listDefaultLimit ++
      ", list_max_limit=" ++ Text.write listMaxLimit

/-- A whole number in a range; blanks around it do not matter. -/
def readWhole (r : Text.Range) (s : String) : Except TextFault Int :=
  (r.read (Text.trim s)).mapError .numeral

def readCount (s : String) : Except TextFault Nat :=
  (readWhole .unsigned s).map Int.toNat

def readFlag (s : String) : Except TextFault Bool :=
  if Text.trim s = "true" then .ok true
  else if Text.trim s = "false" then .ok false
  else .error .notFlag

namespace TextStore

/-- The setting of a key: its text read, or the default. -/
def setting {α : Type} (s : TextStore) (key : SettingKey) (read : String → Except TextFault α)
    (default : α) : Except SettingsError α :=
  match s.get? key.name with
  | none => .ok default
  | some text => (read text).mapError (.unreadable key text)

end TextStore

namespace Settings

/-- The settings in a store, each with its type. -/
def typed (s : TextStore) : Except SettingsError Settings := do
  let acceptanceWindow ← s.setting .acceptanceWindow (readWhole .signed) default.acceptanceWindow
  let lateAfter ← s.setting .lateAfter (readWhole .signed) default.lateAfter
  let sweepInterval ← s.setting .sweepInterval readCount default.sweepInterval
  let listDefaultLimit ← s.setting .listDefaultLimit readCount default.listDefaultLimit
  let listMaxLimit ← s.setting .listMaxLimit readCount default.listMaxLimit
  let logLevel ← s.setting .logLevel .ok default.logLevel
  let logJson ← s.setting .logJson readFlag default.logJson
  return ⟨acceptanceWindow, lateAfter, sweepInterval, listDefaultLimit, listMaxLimit, logLevel,
    logJson⟩

/-- Settings that go together. -/
def checked (c : Settings) : Except SettingsError Settings :=
  if c.acceptanceWindow < 0 ∨ c.lateAfter < 0 then
    .error (.negativeTime c.acceptanceWindow c.lateAfter)
  else if c.listDefaultLimit = 0 ∨ c.listMaxLimit < c.listDefaultLimit then
    .error (.badLimits c.listDefaultLimit c.listMaxLimit)
  else .ok c

def load (s : TextStore) : Except SettingsError Settings := (typed s).bind checked

/-- The texts that settings are written as. -/
def texts (c : Settings) : List (SettingKey × String) :=
  [(.acceptanceWindow, Text.write c.acceptanceWindow),
    (.lateAfter, Text.write c.lateAfter),
    (.sweepInterval, Text.write c.sweepInterval),
    (.listDefaultLimit, Text.write c.listDefaultLimit),
    (.listMaxLimit, Text.write c.listMaxLimit),
    (.logLevel, c.logLevel),
    (.logJson, if c.logJson then "true" else "false")]

end Settings

end GridDispatch
