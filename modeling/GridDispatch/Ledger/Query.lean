import GridDispatch.Ledger.QueryText
import GridDispatch.Ledger.Reading
import GridDispatch.Listing
import GridDispatch.Registry

/-!
# The list query

`Ledger.query` lists solicitations with their standing. It works on stored rows: each envelope that
has events is joined with its newest event and the time of its oldest, the joined rows are filtered,
sorted and cut off, and only the rows that are left are read.
-/

namespace GridDispatch

/-- An envelope with its newest event and the time of its oldest. -/
structure Joined where
  envelope : EnvelopeRow
  head : EventRow
  created : Cell
  deriving DecidableEq, Repr

namespace Joined

def of? (l : Ledger) (envelope : EnvelopeRow) : Option Joined :=
  match l.rowsOf envelope.id with
  | [] => none
  | head :: rest => some ⟨envelope, head, ((head :: rest).getLast (by simp)).time⟩

/-- The place among the buckets of the status with the given name; a name in none comes last. -/
def rank (view : SortView) (status : String) : Nat :=
  view.buckets.findIdx fun b => (b.statuses.map Status.name).contains status

/-- Whether a status is listed with its newest first. -/
def turned (view : SortView) (status : String) : Bool :=
  view.buckets.any fun b => b.newestFirst && (b.statuses.map Status.name).contains status

/-- The time of the last change, negative in a bucket that is listed with its newest first. -/
def changed (view : SortView) (j : Joined) : Cell :=
  if turned view j.head.status then j.head.time.negate else j.head.time

def orderBy (view : SortView) (a b : Joined) : SortHint → Ordering
  | .status =>
    (compare (rank view a.head.status) (rank view b.head.status)).then
      ((a.changed view).order (b.changed view))
  | .creationTime => b.created.order a.created
  | .substation => compare a.envelope.substationCode b.envelope.substationCode

/-- Compares by the hints in turn, and by id at last. -/
def order (view : SortView) (a b : Joined) : List SortHint → Ordering
  | [] => compare a.envelope.id b.envelope.id
  | hint :: hints => (orderBy view a b hint).then (order view a b hints)

/-- Whether a filter keeps a row. -/
def keeps (registry : Registry) (filter : Filter) (j : Joined) : Bool :=
  (filter.companyCode.all fun code => j.envelope.companyCode == code) &&
    (filter.substations.isEmpty || filter.substations.contains j.envelope.substationCode) &&
    (filter.tableCode.all fun table =>
      registry.inTable j.envelope.companyCode j.envelope.substationCode table) &&
    !(filter.excludeExpired && j.head.status == Status.late.name)

end Joined

/-- The hints to sort by; without any, the status decides. -/
def SortHint.orStatus : List SortHint → List SortHint
  | [] => [.status]
  | hints => hints

/-- A limit of `2 ^ 63` and more is none. -/
def noLimit : Nat := 9223372036854775808

/-- The part of a list that a page shows. -/
def Page.cut {α : Type} (page : Page) (rows : List α) : List α :=
  if page.limit < noLimit then rows.take page.limit else rows

/-- The joined rows that a page of a list shows. -/
def Ledger.listed (l : Ledger) (registry : Registry) (filter : Filter) (page : Page)
    (view : SortView) (hints : List SortHint) : List Joined :=
  let rows := (l.envelopes.filterMap (Joined.of? l)).filter fun j =>
    j.keeps registry filter && page.fromId.all fun id => decide (id ≤ j.envelope.id)
  page.cut (rows.mergeSort fun a b => (Joined.order view a b (SortHint.orStatus hints)).isLE)

/-- The number of keys that a hint sorts by. -/
def SortHint.keys : SortHint → Nat
  | .status => 2
  | .creationTime | .substation => 1

/-- The number of keys that hints sort by, the id among them. -/
def SortHint.keyCount : List SortHint → Nat
  | [] => 1
  | hint :: hints => hint.keys + keyCount hints

/-- A list is sorted by no more keys than this. -/
def keyBound : Nat := 2000

/-- Lists solicitations. All rows are fetched before the first is read. -/
def Ledger.query (l : Ledger) (registry : Registry) (filter : Filter) (page : Page)
    (view : SortView) (hints : List SortHint) : Except StoreError (List View) :=
  if valueBound < ListQuery.values filter page then
    .error (.queryFailed (ListQuery.tooManyValues
      (ListQuery.text filter page view (SortHint.orStatus hints))))
  else if keyBound < SortHint.keyCount (SortHint.orStatus hints) then
    .error .tooManyKeys
  else do
    let rows := l.listed registry filter page view hints
    rows.forM fun j => j.envelope.check
    rows.mapM fun j => l.viewOf j.envelope

end GridDispatch
