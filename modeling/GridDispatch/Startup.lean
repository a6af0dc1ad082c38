import GridDispatch.Ledger.Reading
import GridDispatch.Schema
import GridDispatch.Settings

/-!
# Starting up

Where the store is, and what is read from it before the service begins.
-/

namespace GridDispatch

/-- The path of the store: the environment's text if it is not blank, else a file in the user's
directory for data, or in the working directory if that one cannot be made. -/
def defaultPath (environment dataDirectory : Option String) : String :=
  match environment.bind Text.filled?, dataDirectory with
  | some path, _ => path
  | none, some directory => directory ++ "/voltage-control/voltage_control.db"
  | none, none => "./voltage_control.db"

structure Store where
  schema : Schema
  texts : TextStore
  ledger : Ledger

def Store.bare : Store := ⟨.bare, .empty, .empty⟩

/-- A started service: its settings, and the token of the newest update. -/
structure Started where
  settings : Settings
  token : Int
  deriving DecidableEq, Repr

structure StartFault where
  cause : SettingsError
  deriving DecidableEq, Repr

def StartFault.message (f : StartFault) : String := "配置加载失败: " ++ f.cause.message

/-- Makes the tables and loads the settings. -/
def Store.start (s : Store) : Except StartFault Started × Store :=
  let s := { s with schema := s.schema.setUp }
  match Settings.load s.texts with
  | .error cause => (.error ⟨cause⟩, s)
  | .ok settings => (.ok ⟨settings, s.ledger.token⟩, s)

end GridDispatch
