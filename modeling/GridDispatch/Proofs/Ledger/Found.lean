import GridDispatch.Proofs.Announcement
import GridDispatch.Proofs.Ledger.History
import GridDispatch.Proofs.Ledger.Views

/-!
# What is found by an id

The view that is found depends on the envelopes and on the events of its solicitation only
(`Ledger.find?_congr`), so it stays when events of others come in. An event of its own that is newer
than all others becomes the head, and the view goes on with it (`Ledger.find?_of_newest`).
-/

namespace GridDispatch

/-- The view after an event that is newer than all others. -/
def View.after (v : View) (e : Event) : View :=
  { v with status := e.status, updatedAt := e.time, events := e :: v.events }

namespace Ledger

variable {l l' : Ledger} {id : Int} {v : View} {e : Event}

theorem state?_congr (h : l'.written id = l.written id) : l'.state? id = l.state? id := by
  have hrows : l'.rowsOf id = l.rowsOf id := congrArg (List.mergeSort · EventRow.newer) h
  rw [state?, state?, eventsOf, eventsOf, hrows]

/-- What is found depends on the envelopes and on the events of the solicitation only. -/
theorem find?_congr (henvelopes : l'.envelopes = l.envelopes)
    (hwritten : l'.written id = l.written id) : l'.find? id = l.find? id := by
  have hfound : l'.envelope? id = l.envelope? id := by rw [envelope?, envelope?, henvelopes]
  rw [find?, find?, hfound]
  split
  · rfl
  · rename_i row hrow
    have hid : row.id = id := by simpa using List.find?_some hrow
    rw [viewOf, viewOf, hid, state?_congr hwritten]

theorem written_withEvent (h : e.solicitationId = id) :
    (l.withEvent e).written id = l.written id ++ [EventRow.of e] := by
  simp [written, withEvent, EventRow.of, h]

theorem written_withEvent_of_ne (h : e.solicitationId ≠ id) :
    (l.withEvent e).written id = l.written id := by
  simp [written, withEvent, EventRow.of, h]

theorem find?_withEvent_of_ne (h : e.solicitationId ≠ id) :
    (l.withEvent e).find? id = l.find? id :=
  find?_congr rfl (written_withEvent_of_ne h)

theorem SameRows.find? (h : l.SameRows l') (id : Int) : l'.find? id = l.find? id :=
  find?_congr h.envelopes (congrArg (List.filter _) h.events)

theorem id_of_find? (h : l.find? id = .ok (some v)) : v.id = id := by
  obtain ⟨row, -, hid, hview⟩ := find?_eq_some h
  obtain ⟨solicitation, state, hread, -, rfl⟩ := viewOf_eq_ok hview
  exact (EnvelopeRow.codes_of_read hread).1.trans hid

theorem hasEnvelope_of_find? (h : l.find? id = .ok (some v)) : l.hasEnvelope id = true := by
  obtain ⟨row, hrow, hid, -⟩ := find?_eq_some h
  exact List.any_eq_true.2 ⟨row, hrow, decide_eq_true hid⟩

/-- The standing that the view shows, and the events that it is read off. -/
theorem exists_state_of_find? (h : l.find? id = .ok (some v)) : ∃ log state, l.Logs id log ∧
    State.ofEvents? log = some state ∧ v = View.of v.solicitation state := by
  obtain ⟨row, -, rfl, hview⟩ := find?_eq_some h
  obtain ⟨solicitation, state, -, hstate, rfl⟩ := viewOf_eq_ok hview
  obtain ⟨log, hlog, hof⟩ := state?_eq_ok_iff.1 hstate
  exact ⟨log, state, hlog, hof, rfl⟩

/-- The envelope stays what it is when events come in, so the solicitation does. -/
theorem find?_of_logs (h : l.find? id = .ok (some v)) (henvelopes : l'.envelopes = l.envelopes)
    {log : List Event} {state : State} (hlog : l'.Logs id log)
    (hof : State.ofEvents? log = some state) :
    l'.find? id = .ok (some (View.of v.solicitation state)) := by
  obtain ⟨row, hfound, rfl, hcheck, hview⟩ := envelope?_of_find? h
  obtain ⟨solicitation, state', hread, -, rfl⟩ := viewOf_eq_ok hview
  have hfound' : l'.envelope? row.id = some row := by rwa [envelope?, henvelopes]
  exact find?_of_read hfound' hcheck hread (hlog.state?.trans (congrArg _ hof))

theorem find?_of_newest (h : l.find? id = .ok (some v)) (htime : v.updatedAt ≤ e.time)
    (hused : ∀ row ∈ l.events, row.eventId < e.eventId) (henvelopes : l'.envelopes = l.envelopes)
    (hwritten : l'.written id = l.written id ++ [EventRow.of e]) :
    l'.head? id = some (EventRow.of e) ∧ l'.find? id = .ok (some (v.after e)) := by
  obtain ⟨log, state, hlog, hof, hv⟩ := exists_state_of_find? h
  obtain ⟨head, hhead, -, hchanged, -⟩ := State.newest_of_ofEvents? hof
  have hupdated : v.updatedAt = head.time := (congrArg View.updatedAt hv).trans hchanged
  have hnewest : ∀ e' ∈ log, e'.time ≤ e.time ∧ e'.eventId < e.eventId := by
    intro e' he'
    have hnewer := Event.newer_iff.1 (newer_of_newest hhead he')
    exact ⟨by omega, hused _ (mem_written.1 (hlog.mem_written he')).1⟩
  have hlog' : l'.Logs id (log ++ [e]) := by
    rw [Logs, hwritten, hlog, List.map_append, List.map_singleton]
  refine ⟨by rw [hlog'.head?, newest_append hnewest, Option.map_some], ?_⟩
  rw [find?_of_logs h henvelopes hlog' (State.ofEvents?_concat hnewest hof), hv]
  rfl

end Ledger

end GridDispatch
