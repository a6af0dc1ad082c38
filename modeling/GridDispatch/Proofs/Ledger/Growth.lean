import GridDispatch.Proofs.Ledger.Batch
import GridDispatch.Proofs.Ledger.History
import GridDispatch.Proofs.Ledger.Views

/-!
# Ledgers that grow

`l.Grows l'` says that the envelopes and the events of `l` are where they were in `l'`, and that every
event after them can be read. It holds for whatever the program writes. A solicitation that can be
read can then be read for good, with the same envelope (`Grows.find?`).
-/

namespace GridDispatch.Ledger

variable {l l' l'' : Ledger} {id eventId time : Int} {actor justification : Option String}
  {status : Status} {requesterId : String} {groupId : Option String} {new : NewSolicitation}

/-- Nothing has happened to envelopes and events but that new ones came in at the end. -/
structure Grows (l l' : Ledger) : Prop where
  envelopes : l.envelopes <+: l'.envelopes
  events : ∃ new : List Event, l'.events = l.events ++ new.map EventRow.of

namespace Grows

theorem of_rows (henvelopes : l'.envelopes = l.envelopes) (hevents : l'.events = l.events) :
    l.Grows l' :=
  ⟨henvelopes ▸ List.prefix_refl _, [], by rw [hevents, List.map_nil, List.append_nil]⟩

theorem refl (l : Ledger) : l.Grows l := of_rows rfl rfl

theorem trans (h : l.Grows l') (h' : l'.Grows l'') : l.Grows l'' := by
  obtain ⟨new, hnew⟩ := h.events
  obtain ⟨new', hnew'⟩ := h'.events
  refine ⟨h.envelopes.trans h'.envelopes, new ++ new', ?_⟩
  rw [hnew', hnew, List.append_assoc, List.map_append]

/-! ## Writes -/

theorem insertEvent
    (h : l.insertEvent id actor status time justification = .ok (eventId, l')) : l.Grows l' := by
  obtain ⟨rfl, -⟩ := insertEvent_eq_ok h
  exact ⟨List.prefix_refl _, [_], rfl⟩

theorem enter (h : l.enter new requesterId groupId status time = .ok (id, l')) : l.Grows l' := by
  obtain ⟨⟨eventId, rfl, -⟩, -⟩ := enter_eq_ok h
  exact ⟨List.prefix_append .., [_], rfl⟩

theorem enterAll {g : Group} {news : List NewSolicitation} {ids : List Int}
    (h : l.enterAll g status time news = .ok (ids, l')) : l.Grows l' := by
  obtain ⟨entered, -, -, rfl, -⟩ := enterAll_eq_ok h
  exact ⟨List.prefix_append .., entered.map (Entered.event g status time), by rw [List.map_map]; rfl⟩

theorem createBatch {g : Group} {news : List NewSolicitation} {ids : List Int}
    (h : l.createBatch g news status time = .ok (ids, l')) : l.Grows l' := by
  obtain ⟨l₁, hgroup, henter⟩ := bind_eq_ok_iff.1 h
  have hkept : l.Grows l₁ := by
    obtain rfl := insertGroup_eq_ok hgroup
    exact of_rows rfl rfl
  exact hkept.trans (enterAll henter)

theorem record {token : Int} {userId : Option String} {kind : UpdateKind} {content : Json}
    (h : l.record id userId kind content = .ok (token, l')) : l.Grows l' := by
  obtain rfl := record_eq_ok h
  exact of_rows rfl rfl

/-! ## What stays -/

theorem envelope? {row : EnvelopeRow} (h : l.Grows l') (hrow : l.envelope? id = some row) :
    l'.envelope? id = some row := by
  obtain ⟨rest, hrest⟩ := h.envelopes
  rw [Ledger.envelope?] at hrow ⊢
  rw [← hrest, List.find?_append, hrow, Option.some_or]

theorem hasEnvelope (h : l.Grows l') (hid : l.hasEnvelope id = true) : l'.hasEnvelope id = true := by
  obtain ⟨row, hrow, hid⟩ := List.any_eq_true.1 hid
  exact List.any_eq_true.2 ⟨row, h.envelopes.subset hrow, hid⟩

theorem logs {log : List Event} (h : l.Grows l') (hlog : l.Logs id log) :
    ∃ new, l'.Logs id (log ++ new) := by
  obtain ⟨new, hnew⟩ := h.events
  refine ⟨new.filter fun e => decide (e.solicitationId = id), ?_⟩
  rw [Logs, written, hnew, List.filter_append, List.filter_map, List.map_append]
  exact congrArg (· ++ _) hlog

/-- The standing of a solicitation may change, but it is there for good. -/
theorem state? {s : State} (h : l.Grows l') (hs : l.state? id = .ok (some s)) :
    ∃ s', l'.state? id = .ok (some s') := by
  obtain ⟨log, hlog, hof⟩ := state?_eq_ok_iff.1 hs
  obtain ⟨new, hlog'⟩ := h.logs hlog
  cases hof' : State.ofEvents? (log ++ new) with
  | none =>
    obtain ⟨rfl, -⟩ := List.append_eq_nil_iff.1 (State.ofEvents?_eq_none_iff.1 hof')
    rw [State.ofEvents?_eq_none_iff.2 rfl] at hof
    cases hof
  | some s' => exact ⟨s', hlog'.state?.trans (congrArg _ hof')⟩

/-- What has been read of an envelope is read of it for good. -/
theorem find? {view : View} (h : l.Grows l') (hview : l.find? id = .ok (some view)) :
    ∃ view', l'.find? id = .ok (some view') ∧ view'.solicitation = view.solicitation := by
  simp only [Ledger.find?] at hview
  split at hview
  · cases hview
  · rename_i row hrow
    obtain ⟨⟨⟩, hcheck, hview⟩ := bind_eq_ok_iff.1 hview
    obtain ⟨view, hviewOf, hview⟩ := bind_eq_ok_iff.1 hview
    cases hview
    obtain ⟨solicitation, state, hread, hstate, rfl⟩ := viewOf_eq_ok hviewOf
    obtain ⟨state', hstate'⟩ := h.state? hstate
    have hid : row.id = id := by simpa using List.find?_some hrow
    subst hid
    exact ⟨_, find?_of_read (h.envelope? hrow) hcheck hread hstate', rfl⟩

end Grows
end GridDispatch.Ledger
