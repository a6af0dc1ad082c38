/-!
# Reference data

Which substations and tables of substations a company has, and which company a user belongs to.
A user belongs to one company at a time. A `Directory` is a registry that is asked from afar, where
lookups of some kinds may be out of order.
-/

namespace GridDispatch

structure Substation where
  companyCode : String
  code : String
  tableCode : Option String
  deriving DecidableEq, Repr

structure Registry where
  /-- Tables of substations, by company and code. -/
  tables : List (String × String)
  substations : List Substation
  /-- Users with the company of each. -/
  users : List (String × String)
  deriving DecidableEq, Repr

namespace Registry

def empty : Registry := ⟨[], [], []⟩

def putTable (r : Registry) (companyCode tableCode : String) : Registry :=
  if (companyCode, tableCode) ∈ r.tables then r
  else { r with tables := r.tables ++ [(companyCode, tableCode)] }

/-- Puts a substation in place of the one of that company and code. -/
def putSubstation (r : Registry) (s : Substation) : Registry :=
  { r with
    substations :=
      (r.substations.filter fun s' => !(s'.companyCode == s.companyCode && s'.code == s.code)) ++
        [s] }

/-- Puts a user into a company and out of the one before. -/
def assign (r : Registry) (user companyCode : String) : Registry :=
  { r with users := (r.users.filter fun u => u.1 != user) ++ [(user, companyCode)] }

def hasTable (r : Registry) (companyCode tableCode : String) : Bool :=
  decide ((companyCode, tableCode) ∈ r.tables)

def hasSubstation (r : Registry) (companyCode code : String) : Bool :=
  r.substations.any fun s => s.companyCode == companyCode && s.code == code

/-- Whether the substation is now in the table. -/
def inTable (r : Registry) (companyCode code tableCode : String) : Bool :=
  r.substations.any fun s =>
    s.companyCode == companyCode && s.code == code && s.tableCode == some tableCode

def companyOf (r : Registry) (user : String) : Option String :=
  (r.users.find? fun u => u.1 == user).map fun u => u.2

/-- The users of a company by code point. -/
def usersOf (r : Registry) (companyCode : String) : List String :=
  ((r.users.filter fun u => u.2 == companyCode).map Prod.fst).mergeSort fun a b => decide (a ≤ b)

end Registry

inductive Lookup
  | companyOf
  | usersOf
  | substationExists
  | tableExists
  deriving DecidableEq, Repr

/-- A lookup that is out of order. -/
structure Outage where
  lookup : Lookup
  deriving DecidableEq, Repr

def Lookup.name : Lookup → String
  | companyOf => "company_of"
  | usersOf => "users_of"
  | substationExists => "exists"
  | tableExists => "table_exists"

def Outage.message (o : Outage) : String := o.lookup.name ++ " unavailable"

structure Directory where
  registry : Registry
  down : List Lookup
  deriving DecidableEq, Repr

namespace Directory

def ask {α : Type} (d : Directory) (lookup : Lookup) (answer : α) : Except Outage α :=
  if lookup ∈ d.down then .error ⟨lookup⟩ else .ok answer

def companyOf (d : Directory) (user : String) : Except Outage (Option String) :=
  d.ask .companyOf (d.registry.companyOf user)

def usersOf (d : Directory) (companyCode : String) : Except Outage (List String) :=
  d.ask .usersOf (d.registry.usersOf companyCode)

def hasSubstation (d : Directory) (companyCode code : String) : Except Outage Bool :=
  d.ask .substationExists (d.registry.hasSubstation companyCode code)

def hasTable (d : Directory) (companyCode tableCode : String) : Except Outage Bool :=
  d.ask .tableExists (d.registry.hasTable companyCode tableCode)

end Directory

end GridDispatch
