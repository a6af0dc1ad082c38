import GridDispatch.Ledger.Basic

/-!
# Reading the ledger

`state?` is the standing of a solicitation, read off its events; `find?` adds the envelope.
`stale` finds the acceptances whose time has come, and `updatesBetween` reads on in the stream of
updates from one token to another.
-/

namespace GridDispatch.Ledger

/-- The events of a solicitation, the newest first. All rows are fetched before the first is read. -/
def eventsOf (l : Ledger) (id : Int) : Except StoreError (List Event) := do
  (l.rowsOf id).forM EventRow.check
  (l.rowsOf id).mapM EventRow.read

/-- The standing of a solicitation, or nothing if it has no events. -/
def state? (l : Ledger) (id : Int) : Except StoreError (Option State) := do
  let events ← l.eventsOf id
  return State.ofEvents? events

/-- The view of a fetched envelope. -/
def viewOf (l : Ledger) (row : EnvelopeRow) : Except StoreError View := do
  let solicitation ← row.read
  match ← l.state? row.id with
  | none => row.corrupt .noEvents
  | some state => return View.of solicitation state

def envelope? (l : Ledger) (id : Int) : Option EnvelopeRow :=
  l.envelopes.find? fun row => decide (row.id = id)

def find? (l : Ledger) (id : Int) : Except StoreError (Option View) :=
  match l.envelope? id with
  | none => .ok none
  | some row => do
    row.check
    let view ← l.viewOf row
    return some view

/-- The solicitations that were accepted before `cutoff` and are still at that, by id. -/
def stale (l : Ledger) (cutoff : Int) : List Int :=
  (l.envelopes.filterMap fun row =>
    match l.head? row.id with
    | some head =>
      if head.status = Status.accepted.name ∧ head.time.order (.int cutoff) = .lt then some row.id
      else none
    | none => none).mergeSort fun a b => decide (a ≤ b)

/-- The updates after token `start` up to token `stop`, by token. -/
def updatesBetween (l : Ledger) (start stop : Int) : Except StoreError (List Update) :=
  ((l.updates.filter fun row => decide (start < row.streamId ∧ row.streamId ≤ stop)).mergeSort
    fun a b => decide (a.streamId ≤ b.streamId)).mapM UpdateRow.read

/-- The greatest token of an update, zero before the first. -/
def token (l : Ledger) : Int :=
  ((l.updates.map UpdateRow.streamId).max?).getD 0

end GridDispatch.Ledger
