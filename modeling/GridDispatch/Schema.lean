import GridDispatch.Ledger.Error

/-!
# Version of the store

A store without tables has no version. Setting it up adds the row of the current version once; the
version of a store is the highest of its rows.
-/

namespace GridDispatch

def currentVersion : Int := 1

/-- The version rows of a store, nothing before the tables are made. -/
structure Schema where
  versions : Option (List Int)
  deriving DecidableEq, Repr

namespace Schema

def bare : Schema := ⟨none⟩

/-- Makes the tables, and adds the current version if it is not there. -/
def setUp (s : Schema) : Schema :=
  let rows := s.versions.getD []
  ⟨some (if currentVersion ∈ rows then rows else rows ++ [currentVersion])⟩

def version? (s : Schema) : Option Int := s.versions.bind List.max?

def addVersion (s : Schema) (version : Int) : Except StoreError Schema :=
  match s.versions with
  | none => .error (.ofFailure "no such table: schema_version")
  | some rows => .ok ⟨some (rows ++ [version])⟩

end Schema

end GridDispatch
