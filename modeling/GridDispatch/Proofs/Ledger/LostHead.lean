import GridDispatch.Ledger.Reading
import GridDispatch.Proofs.Checked
import GridDispatch.Workflow.Error

/-!
# Lost heads

A write that asks for a head is refused as too late exactly if the solicitation has another head
(`Ledger.appendIfCurrent_eq_staleHead_iff`). No other error of the ledger can be taken for that.
-/

namespace GridDispatch

theorem WorkflowError.ofStore_eq_concurrent {e : StoreError} {id : Int}
    (h : WorkflowError.ofStore e = .concurrent id) :
    ∃ expected actual, e = .staleHead id expected actual := by
  cases e with
  | staleHead id' expected actual =>
    cases h
    exact ⟨expected, actual, rfl⟩
  | _ => cases h

theorem WorkflowError.ofStore_ne_refused {e : StoreError} {refusal : Refusal} :
    WorkflowError.ofStore e ≠ .refused refusal := by
  cases e with
  | _ => nofun

theorem StoreError.ofStore_ofFailure (text : String) :
    WorkflowError.ofStore (ofFailure text) = .store (ofFailure text) := by
  simp only [ofFailure]
  split
  · rfl
  · split <;> rfl

theorem StoreError.ofFailure_ne_staleHead {text : String} {id expected actual : Int} :
    StoreError.ofFailure text ≠ .staleHead id expected actual := by
  intro h
  simp only [ofFailure] at h
  split at h
  · cases h
  · split at h <;> cases h

namespace Ledger

variable {l : Ledger} {id i expected actual : Int}

/-- Reading never tells of a lost head. -/
theorem state?_ne_staleHead : l.state? id ≠ .error (.staleHead i expected actual) := by
  intro h
  rcases bind_eq_error_iff.1 h with hevents | ⟨_, -, hstate⟩
  · rcases bind_eq_error_iff.1 hevents with hcheck | ⟨⟨⟩, -, hread⟩
    · obtain ⟨row, -, hrow⟩ := exists_of_forM_eq_error hcheck
      simp only [EventRow.check] at hrow
      split at hrow <;> cases hrow
    · obtain ⟨row, -, hrow⟩ := exists_of_mapM_eq_error hread
      simp only [EventRow.read] at hrow
      split at hrow <;> cases hrow
  · cases hstate

theorem passGuards_ne_staleHead {table : Table} {cell : String → Cell} :
    l.passGuards table cell ≠ .error (.staleHead i expected actual) := by
  intro h
  simp only [passGuards] at h
  split at h
  · exact StoreError.ofFailure_ne_staleHead (Except.error.inj h)
  · split at h
    · exact StoreError.ofFailure_ne_staleHead (Except.error.inj h)
    · cases h

theorem nextId_ne_staleHead {last : Int} {used : List Int} :
    nextId last used ≠ .error (.staleHead i expected actual) := by
  intro h
  simp only [nextId] at h
  split at h <;> cases h

/-- Nor does a write that asks for no head. -/
theorem insertEvent_ne_staleHead {actor : Option String} {status : Status} {time : Int}
    {justification : Option String} :
    l.insertEvent id actor status time justification ≠ .error (.staleHead i expected actual) := by
  intro h
  rcases bind_eq_error_iff.1 h with hguards | ⟨⟨⟩, -, h⟩
  · exact passGuards_ne_staleHead hguards
  · rcases bind_eq_error_iff.1 h with hnext | ⟨_, -, h⟩
    · exact nextId_ne_staleHead hnext
    · split at h <;> cases h

/-- An event that does not go in is refused by the storage, whatever solicitation it is for. -/
theorem ofStore_of_insertEvent {time : Int} {actor : Option String} {status : Status}
    {justification : Option String} {fault : StoreError}
    (h : l.insertEvent id actor status time justification = .error fault) :
    WorkflowError.ofStore fault = .store fault := by
  rcases bind_eq_error_iff.1 h with hguards | ⟨⟨⟩, -, h⟩
  · simp only [passGuards] at hguards
    split at hguards
    · cases hguards
      exact StoreError.ofStore_ofFailure _
    · split at hguards
      · cases hguards
        exact StoreError.ofStore_ofFailure _
      · cases hguards
  · rcases bind_eq_error_iff.1 h with hnext | ⟨next, -, h⟩
    · simp only [nextId] at hnext
      split at hnext
      · cases hnext
      · cases hnext
        rfl
    · split at h
      · cases h
      · cases h
        rfl

/-- A write is refused for a lost head exactly if there is a head and it is another. -/
theorem appendIfCurrent_eq_staleHead_iff {seen : Marker} {actor : Option String}
    {status : Status} {time : Int} {justification : Option String} :
    l.appendIfCurrent id seen actor status time justification =
        .error (.staleHead i expected actual) ↔
      i = id ∧ expected = seen.headEventId ∧
        ∃ head, l.head? id = some head ∧ head.eventId ≠ seen.headEventId ∧
          actual = head.eventId := by
  simp only [appendIfCurrent]
  constructor
  · intro h
    split at h
    · cases h
    · split at h
      · exact absurd h insertEvent_ne_staleHead
      · rename_i head hhead hne
        cases h
        exact ⟨rfl, rfl, head, hhead, hne, rfl⟩
  · rintro ⟨rfl, rfl, head, hhead, hne, rfl⟩
    simp only [hhead, if_neg hne]

end Ledger

end GridDispatch
