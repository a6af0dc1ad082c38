import GridDispatch.Proofs.Ledger.Found
import GridDispatch.Proofs.Transition

/-!
# Transitions with nobody else around

Nobody is there to take the head away, so a transition is not tried again: of a solicitation that is
found, the authority judges the standing that the view shows, and then the event goes in unless the
storage refuses it (`Transition.apply_alone_of_refused`, `Transition.apply_alone_of_granted`).
-/

namespace GridDispatch

/-- An event that asks for the head that is there goes in like any other. -/
theorem Ledger.appendIfCurrent_of_current {l : Ledger} {id time : Int} {row : EventRow}
    {seen : Marker} {actor justification : Option String} {status : Status}
    (hrow : l.head? id = some row) (hseen : row.eventId = seen.headEventId) :
    l.appendIfCurrent id seen actor status time justification =
      l.insertEvent id actor status time justification := by
  simp only [appendIfCurrent, hrow, if_pos hseen]

namespace Transition

open Ledger

variable {t : Transition} {s : Service} {v : View} {refusal : Refusal}

theorem apply_alone_of_refused (hfind : s.ledger.find? t.id = .ok (some v))
    (hcheck : s.authority.check t.role v.status t.requested v.createdAt s.now = .error refusal) :
    t.apply s.alone = (.error (.refused refusal), s.alone) := by
  obtain ⟨log, state, hlog, hof, hv⟩ := exists_state_of_find? hfind
  have hstate : s.alone.service.ledger.state? t.id = .ok (some state) :=
    hlog.state?.trans (congrArg _ hof)
  have hcheck' : s.alone.later.service.authority.check t.role state.status t.requested
      state.createdAt s.alone.later.service.now = .error refusal := by
    rw [hv] at hcheck
    exact hcheck
  simp only [apply, attempt, hstate, Shared.readClock_eq, hcheck']
  rfl

theorem apply_alone_of_granted (hfind : s.ledger.find? t.id = .ok (some v))
    (hcheck : s.authority.check t.role v.status t.requested v.createdAt s.now = .ok ()) :
    t.apply s.alone =
      match s.ledger.insertEvent t.id t.actor t.requested (max s.now v.updatedAt)
        t.justification with
      | .error fault => (.error (.store fault), s.alone)
      | .ok (eventId, ledger) => (.ok ⟨eventId, v.status⟩, { s with ledger }.alone) := by
  obtain ⟨log, state, hlog, hof, hv⟩ := exists_state_of_find? hfind
  obtain ⟨head, hhead, -, -, hid⟩ := State.newest_of_ofEvents? hof
  have hstate : s.ledger.state? t.id = .ok (some state) := hlog.state?.trans (congrArg _ hof)
  have hrow : s.ledger.head? t.id = some (EventRow.of head) := by
    rw [hlog.head?, hhead, Option.map_some]
  have hgranted : t.Granted s.alone state := by
    refine ⟨hstate, ?_⟩
    rw [hv] at hcheck
    exact hcheck
  have hkept : ¬ t.Loses s.alone := by
    rintro ⟨state', row, ⟨hstate', -⟩, hrow', hne⟩
    cases hstate.symm.trans hstate'
    cases hrow.symm.trans hrow'
    exact hne hid.symm
  have hcurrent : (EventRow.of head).eventId = state.marker.headEventId := hid.symm
  have happend : s.alone.later.service.ledger.appendIfCurrent t.id state.marker t.actor t.requested
      (max s.alone.later.service.now state.updatedAt) t.justification =
        s.ledger.insertEvent t.id t.actor t.requested (max s.now v.updatedAt) t.justification := by
    rw [hv]
    exact appendIfCurrent_of_current hrow hcurrent
  rw [apply_of_not_loses hkept, attempt_of_granted hgranted, happend]
  cases hinsert : s.ledger.insertEvent t.id t.actor t.requested (max s.now v.updatedAt)
      t.justification with
  | error fault =>
    simp only [ofStore_of_insertEvent hinsert]
    rfl
  | ok written =>
    rw [hv]
    rfl

end Transition

end GridDispatch
