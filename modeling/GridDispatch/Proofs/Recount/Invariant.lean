import GridDispatch.Proofs.Ledger.Account
import GridDispatch.Proofs.Lifecycle.Requests

/-!
# Events with an account of them

What holds between requests of the events and the updates of a ledger (`Recounted`): both were given
consecutive ids, and the updates are an account of the events. Events that are added with an account
of them go on with the account (`Recounted.adds`).
-/

namespace GridDispatch

open Ledger

/-! ## Events that are added -/

/-- The ledger has come to new events, with ids that were given out one after the other. -/
structure Ledger.Adds (l l' : Ledger) (new : List Event) : Prop where
  events : l'.events = l.events ++ new.map EventRow.of
  eventIds : GivenOut l.lastEvent (l.events.map EventRow.eventId) (new.map Event.eventId)
  lastEvent : l'.lastEvent = (new.map Event.eventId).getLastD l.lastEvent

namespace Ledger

variable {l l' l'' : Ledger} {new : List Event}

theorem adds_withEvent {e : Event}
    (hnext : nextId l.lastEvent (l.events.map EventRow.eventId) = .ok e.eventId) :
    l.Adds (l.withEvent e) [e] :=
  ⟨rfl, .cons hnext (.nil ..), rfl⟩

theorem adds_withEntered {g : Group} {status : Status} {time : Int} {entered : List Entered}
    (hids : GivenOut l.lastEvent (l.events.map EventRow.eventId) (entered.map Entered.eventId)) :
    l.Adds ((l.withGroup g).withEntered g status time entered)
      (entered.map (Entered.event g status time)) := by
  refine ⟨?_, ?_, ?_⟩
  · rw [List.map_map]
    rfl
  · rw [List.map_map]
    exact hids
  · rw [List.map_map]
    rfl

theorem Adds.sameRows (h : l.Adds l' new) (hsame : l'.SameRows l'') : l.Adds l'' new :=
  ⟨hsame.events.trans h.events, h.eventIds, hsame.lastEvent.trans h.lastEvent⟩

end Ledger

/-! ## What holds between requests -/

/-- The row was written for a solicitation that fits, and so it can be read. -/
def EnvelopeRow.Written (row : EnvelopeRow) : Prop :=
  ∃ id new requesterId groupId, new.params.Fits new.equipment ∧ row = .of id new requesterId groupId

/-- `p` was come to from `origin` by requests; it holds these events and updates, and the updates are
an account of the events. -/
structure Recounted (origin : Ledger) (p : Service) (events : List Event) (updates : List Update) :
    Prop where
  run : ∃ past entries, Run p past entries
  written : ∀ row ∈ p.ledger.envelopes, row.Written
  rows : p.ledger.events = events.map EventRow.of
  lastEvent : p.ledger.lastEvent = origin.lastEvent + events.length
  bound : events ≠ [] → p.ledger.lastEvent ≤ Text.Range.signed.hi
  recorded : origin.Recorded p.ledger updates
  account : Account origin p.ledger.envelopes events updates

namespace Recounted

variable {origin : Ledger} {p p' : Service} {events new : List Event} {updates updates' : List Update}

theorem journal (h : Recounted origin p events updates) :
    ∃ entries, p.ledger.Journal entries ∧ entries.map Entry.event = events := by
  obtain ⟨past, entries, hrun⟩ := h.run
  have hjournal := hrun.journal.1
  refine ⟨entries, hjournal, List.map_injective_iff.2 EventRow.of_injective ?_⟩
  rw [← h.rows, hjournal.events, List.map_map]
  rfl

/-- Anything but the ledger may change. -/
theorem of_ledger (h : Recounted origin p events updates) (hledger : p'.ledger = p.ledger) :
    Recounted origin p' events updates := by
  have hsame : p.ledger.SameRows p'.ledger := hledger ▸ .refl p.ledger
  exact
    { run := (Continues.of_sameRows hsame).exists_run h.run
      written := hledger ▸ h.written
      rows := hledger ▸ h.rows
      lastEvent := hledger ▸ h.lastEvent
      bound := hledger ▸ h.bound
      recorded := hledger ▸ h.recorded
      account := hledger ▸ h.account }

/-- Events that were added go on with the account that tells of them. -/
theorem adds (h : Recounted origin p events updates) (hadds : p.ledger.Adds p'.ledger new)
    (hrun : ∃ past entries, Run p' past entries) (hwritten : ∀ row ∈ p'.ledger.envelopes, row.Written)
    (hrecorded : origin.Recorded p'.ledger updates')
    (haccount : Account origin p'.ledger.envelopes (events ++ new) updates') :
    Recounted origin p' (events ++ new) updates' := by
  have hused : ∀ i ∈ p.ledger.events.map EventRow.eventId, i ≤ p.ledger.lastEvent := by
    obtain ⟨entries, hjournal, -⟩ := h.journal
    exact List.forall_mem_map.2 hjournal.numbered.le_last
  have hlast : p'.ledger.lastEvent = p.ledger.lastEvent + new.length := by
    rw [hadds.lastEvent, hadds.eventIds.gapless hused, List.length_map]
  exact
    { run := hrun
      written := hwritten
      rows := by rw [hadds.events, h.rows, List.map_append]
      lastEvent := by
        rw [hlast, h.lastEvent, List.length_append]
        omega
      bound := by
        intro hne
        by_cases hnew : new = []
        · subst hnew
          rw [List.append_nil] at hne
          rw [hadds.lastEvent]
          exact h.bound hne
        · have hbound := hadds.eventIds.add_length_le hused (by simpa using hnew)
          rwa [hlast, ← List.length_map]
      recorded := hrecorded
      account := haccount }

end Recounted

end GridDispatch
