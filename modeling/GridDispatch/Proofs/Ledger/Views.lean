import GridDispatch.Ledger.Reading
import GridDispatch.Proofs.Checked

/-!
# Views that can be read

What it takes for a view to be found: an envelope that can be read, and events.
-/

namespace GridDispatch

/-- What is read from a row goes by the id and the codes of the row. -/
theorem EnvelopeRow.codes_of_read {row : EnvelopeRow} {solicitation : Solicitation}
    (h : row.read = .ok solicitation) : solicitation.id = row.id ∧
      solicitation.companyCode = row.companyCode ∧
      solicitation.substationCode = row.substationCode := by
  simp only [read] at h
  split at h
  · cases h
  · cases h
  · obtain ⟨voltage, -, h⟩ := bind_eq_ok_iff.1 h
    obtain ⟨primary, -, h⟩ := bind_eq_ok_iff.1 h
    obtain ⟨secondary, -, h⟩ := bind_eq_ok_iff.1 h
    split at h
    · cases h
    · cases h
      exact ⟨rfl, rfl, rfl⟩

/-- An envelope is found by its id where no other has it. -/
theorem Ledger.envelope?_of_unique {l : Ledger} {row : EnvelopeRow} (hrow : row ∈ l.envelopes)
    (hunique : ∀ row' ∈ l.envelopes, row'.id = row.id → row' = row) :
    l.envelope? row.id = some row := by
  cases hfound : l.envelope? row.id with
  | none =>
    have hnone := List.find?_eq_none.1 hfound row hrow
    simp at hnone
  | some row' =>
    have hid : row'.id = row.id := by simpa using List.find?_some hfound
    rw [hunique row' (List.mem_of_find?_eq_some hfound) hid]

theorem Ledger.viewOf_eq_ok {l : Ledger} {row : EnvelopeRow} {view : View}
    (h : l.viewOf row = .ok view) : ∃ solicitation state, row.read = .ok solicitation ∧
      l.state? row.id = .ok (some state) ∧ view = View.of solicitation state := by
  obtain ⟨solicitation, hread, h⟩ := bind_eq_ok_iff.1 h
  obtain ⟨found, hstate, h⟩ := bind_eq_ok_iff.1 h
  cases found with
  | none => cases h
  | some state =>
    cases h
    exact ⟨solicitation, state, hread, hstate, rfl⟩

/-- An envelope that can be read and whose solicitation has events makes a view. -/
theorem Ledger.find?_of_read {l : Ledger} {row : EnvelopeRow} {solicitation : Solicitation}
    {state : State} (hfound : l.envelope? row.id = some row) (hcheck : row.check = .ok ())
    (hread : row.read = .ok solicitation) (hstate : l.state? row.id = .ok (some state)) :
    l.find? row.id = .ok (some (View.of solicitation state)) := by
  have hview : l.viewOf row = .ok (View.of solicitation state) :=
    bind_eq_ok_iff.2 ⟨solicitation, hread, bind_eq_ok_iff.2 ⟨some state, hstate, rfl⟩⟩
  rw [Ledger.find?, hfound]
  exact bind_eq_ok_iff.2 ⟨(), hcheck, bind_eq_ok_iff.2 ⟨_, hview, rfl⟩⟩

theorem Ledger.envelope?_of_find? {l : Ledger} {id : Int} {view : View}
    (h : l.find? id = .ok (some view)) : ∃ row, l.envelope? id = some row ∧ row.id = id ∧
      row.check = .ok () ∧ l.viewOf row = .ok view := by
  simp only [Ledger.find?] at h
  split at h
  · cases h
  · rename_i row hrow
    obtain ⟨⟨⟩, hcheck, h⟩ := bind_eq_ok_iff.1 h
    obtain ⟨view', hview, h⟩ := bind_eq_ok_iff.1 h
    cases h
    exact ⟨row, hrow, by simpa using List.find?_some hrow, hcheck, hview⟩

theorem Ledger.find?_eq_some {l : Ledger} {id : Int} {view : View}
    (h : l.find? id = .ok (some view)) :
    ∃ row ∈ l.envelopes, row.id = id ∧ l.viewOf row = .ok view := by
  obtain ⟨row, hrow, hid, -, hview⟩ := envelope?_of_find? h
  exact ⟨row, List.mem_of_find?_eq_some hrow, hid, hview⟩

end GridDispatch
