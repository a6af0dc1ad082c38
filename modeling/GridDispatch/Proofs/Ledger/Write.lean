import GridDispatch.Ledger.Reading
import GridDispatch.Proofs.Checked
import GridDispatch.Proofs.Lists

/-!
# What a write leaves behind

Each write to the ledger is given by the ledger that it leaves: an event that went in stands at the
end (`insertEvent_eq_ok`), with an id above all ids that were given out or are in use. Main
statements: `insertEvent_eq_ok`, `appendIfCurrent_eq_ok`, `enter_eq_ok`.
-/

namespace GridDispatch.Ledger

variable {l l' : Ledger} {id eventId : Int} {actor : Option String} {status : Status} {time : Int}
  {justification : Option String}

/-- The ledger with an event at its end. -/
def withEvent (l : Ledger) (e : Event) : Ledger :=
  { l with events := l.events ++ [EventRow.of e], lastEvent := e.eventId }

/-- The ledger with an envelope at its end. -/
def withEnvelope (l : Ledger) (row : EnvelopeRow) : Ledger :=
  { l with envelopes := l.envelopes ++ [row], lastEnvelope := row.id }

/-! ## Ids -/

/-- An id that is given out is above the last one and above all that are in use. -/
theorem lt_of_nextId {last : Int} {used : List Int} (h : nextId last used = .ok id) :
    last < id ∧ ∀ i ∈ used, i < id := by
  simp only [nextId] at h
  split at h
  · cases h
    obtain ⟨hlast, hused⟩ := le_foldl_max used last
    exact ⟨by omega, fun i hi => by have := hused i hi; omega⟩
  · cases h

/-! ## Events -/

theorem insertEvent_eq_ok
    (h : l.insertEvent id actor status time justification = .ok (eventId, l')) :
    l' = l.withEvent ⟨eventId, id, actor, status, time, justification⟩ ∧
      l.hasEnvelope id = true ∧ l.lastEvent < eventId ∧ ∀ row ∈ l.events, row.eventId < eventId := by
  obtain ⟨⟨⟩, -, h⟩ := bind_eq_ok_iff.1 h
  obtain ⟨next, hnext, h⟩ := bind_eq_ok_iff.1 h
  obtain ⟨hlast, hused⟩ := lt_of_nextId hnext
  split at h
  · rename_i hknown
    cases h
    exact ⟨rfl, hknown, hlast, fun row hrow => hused _ (List.mem_map_of_mem hrow)⟩
  · cases h

theorem append_eq_ok (h : l.append id actor status time = .ok (eventId, l')) :
    l.insertEvent id actor status time none = .ok (eventId, l') := by
  simp only [append] at h
  split at h
  · exact h
  · cases h

/-- An event goes in only if the newest event of the solicitation is the one that was seen. -/
theorem appendIfCurrent_eq_ok {seen : Marker}
    (h : l.appendIfCurrent id seen actor status time justification = .ok (eventId, l')) :
    (∃ head, l.head? id = some head ∧ head.eventId = seen.headEventId) ∧
      l.insertEvent id actor status time justification = .ok (eventId, l') := by
  simp only [appendIfCurrent] at h
  split at h
  · cases h
  · rename_i head hhead
    split at h
    · rename_i hsame
      exact ⟨⟨head, hhead, hsame⟩, h⟩
    · cases h

/-! ## Solicitations -/

theorem insertEnvelope_eq_ok {new : NewSolicitation} {requesterId : String}
    {groupId : Option String} (h : l.insertEnvelope new requesterId groupId = .ok (id, l')) :
    l' = l.withEnvelope (EnvelopeRow.of id new requesterId groupId) ∧
      l.lastEnvelope < id ∧ ∀ row ∈ l.envelopes, row.id < id := by
  obtain ⟨⟨⟩, -, h⟩ := bind_eq_ok_iff.1 h
  obtain ⟨next, hnext, h⟩ := bind_eq_ok_iff.1 h
  obtain ⟨hlast, hused⟩ := lt_of_nextId hnext
  split at h
  · cases h
    exact ⟨rfl, hlast, fun row hrow => hused _ (List.mem_map_of_mem hrow)⟩
  · cases h

/-- A solicitation goes in with an envelope and one event. -/
theorem enter_eq_ok {new : NewSolicitation} {requesterId : String} {groupId : Option String}
    (h : l.enter new requesterId groupId status time = .ok (id, l')) :
    (∃ eventId, l' = (l.withEnvelope (EnvelopeRow.of id new requesterId groupId)).withEvent
        ⟨eventId, id, some requesterId, status, time, none⟩ ∧
        l.lastEvent < eventId ∧ ∀ row ∈ l.events, row.eventId < eventId) ∧
      ∀ row ∈ l.envelopes, row.id < id := by
  obtain ⟨⟨id', l₁⟩, henvelope, h⟩ := bind_eq_ok_iff.1 h
  obtain ⟨⟨eventId, l₂⟩, hevent, h⟩ := bind_eq_ok_iff.1 h
  cases h
  obtain ⟨rfl, -, hid⟩ := insertEnvelope_eq_ok henvelope
  obtain ⟨hl, -, hlast, hused⟩ := insertEvent_eq_ok hevent
  exact ⟨⟨eventId, hl, hlast, hused⟩, hid⟩

theorem insertGroup_eq_ok {g : Group} (h : l.insertGroup g = .ok l') :
    l' = { l with groups := l.groups ++ [g] } := by
  simp only [insertGroup] at h
  split at h
  · cases h
  · split at h
    · cases h
    · split at h
      · cases h
      · cases h
        rfl

/-! ## Updates -/

theorem record_eq_ok {userId : Option String} {kind : UpdateKind} {content : Json}
    (h : l.record id userId kind content = .ok (eventId, l')) :
    l' = { l with
      updates := l.updates ++ [.of ⟨eventId, id, userId, kind, content⟩], lastUpdate := eventId } := by
  obtain ⟨⟨⟩, -, h⟩ := bind_eq_ok_iff.1 h
  obtain ⟨next, -, h⟩ := bind_eq_ok_iff.1 h
  split at h
  · cases h
    rfl
  · cases h

end GridDispatch.Ledger
